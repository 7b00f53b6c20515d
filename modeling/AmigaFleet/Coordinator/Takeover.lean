import AmigaFleet.Coordinator.Turns

/-! What hearing a GRANT does. A Bid that went out stays on file until a GRANT
of its task is heard, and a GRANT addressed to us that finds it is taken on. -/
namespace AmigaFleet.Coordinator
open Lib AmigaFleet.Codec AmigaFleet.Reliability

def Call.grantOn (taskId : Int) : Call → Bool
  | .received (.grant grant) _ => grant.taskId = taskId
  | _ => false

/-- A GRANT of the task has been heard since our last Bid on it. -/
def overheard (taskId : Int) : Log → Bool
  | [] => false
  | call::rest => !call.bidOn taskId && (call.grantOn taskId || overheard taskId rest)

/-- Our last Bid on the task went out after every GRANT of it that was heard. -/
def standing (taskId : Int) : Log → Bool
  | [] => false
  | call::rest => call.bidOn taskId || (!call.grantOn taskId && standing taskId rest)

theorem standing_of_bid (taskId : Int) (log : Log) (bid : ∃ call ∈ log, call.bidOn taskId = true)
    (quiet : overheard taskId log = false) : standing taskId log = true := by
  induction log with
  | nil =>
    obtain ⟨_,member,_⟩ := bid
    cases member
  | cons call rest ih =>
    simp only [overheard,standing,Bool.and_eq_false_iff,Bool.not_eq_false',Bool.or_eq_false_iff] at quiet ⊢
    obtain now | ⟨other,later⟩ := quiet
    · simp [now]
    · cases own : call.bidOn taskId with
      | true => rfl
      | false =>
        obtain ⟨first,member,sent⟩ := bid
        obtain rfl | old := List.mem_cons.mp member
        · rw [own] at sent
          cases sent
        · simp [other,ih ⟨first,old,sent⟩ later]

theorem standing_quiet (taskId : Int) (added log : Log)
    (quiet : ∀ call ∈ added, call.bidOn taskId = false ∧ call.grantOn taskId = false) :
    standing taskId (added ++ log) = standing taskId log := by
  induction added with
  | nil => rfl
  | cons call rest ih =>
    obtain ⟨own,other⟩ := quiet call List.mem_cons_self
    rw [List.cons_append,standing,own,other]
    simpa using ih (fun later member => quiet later (List.mem_cons_of_mem _ member))

/-- The robot has taken the GRANT's task on: it owned it when the GRANT came, or
has absorbed it since. -/
def tookOn (grant : Grant) : Bool → Log → Bool
  | _,[] => false
  | absorbed,call::rest =>
    match call with
    | .received (.grant other) tasks =>
      (decide (other = grant) && (absorbed || (tasks.get? grant.taskId).any OwnedTask.ours)) ||
        tookOn grant absorbed rest
    | .absorb task => tookOn grant (absorbed || decide (task.taskId = grant.taskId)) rest
    | _ => tookOn grant absorbed rest

theorem tookOn_absorbed (grant : Grant) (log : Log) (before : tookOn grant false log = true) :
    tookOn grant true log = true := by
  induction log with
  | nil => cases before
  | cons call rest ih =>
    unfold tookOn at before ⊢
    split at before
    · simp only [Bool.false_or,Bool.or_eq_true,Bool.and_eq_true] at before
      obtain ⟨same,_⟩ | later := before
      · simp [same]
      · simp [ih later]
    · simp only [Bool.true_or]
      rename_i task
      cases about : decide (task.taskId = grant.taskId) with
      | true =>
        rw [about] at before
        exact before
      | false =>
        rw [about] at before
        exact ih before
    · exact ih before

theorem tookOn_later (grant : Grant) (added log : Log) (absorbed : Bool)
    (before : tookOn grant false log = true) : tookOn grant absorbed (added ++ log) = true := by
  induction added generalizing absorbed with
  | nil =>
    cases absorbed with
    | true => exact tookOn_absorbed grant log before
    | false => exact before
  | cons call rest ih =>
    rw [List.cons_append]
    unfold tookOn
    split
    · simp [ih absorbed]
    · exact ih _
    · exact ih absorbed

def newCalls (before after : Session) : Log := after.log.take (after.log.length - before.log.length)

theorem newCalls_of_log (before after : Session) (added : Log) (grown : after.log = added ++ before.log) :
    newCalls before after = added := by
  simp [newCalls,grown]

def Call.adds : Call → Option Task
  | .absorb task => some task
  | _ => none

def addedFirst (calls : Log) : Option Task := (calls.filterMap Call.adds).getLast?

theorem addedFirst_absorb (later early : Log) (task : Task) (quiet : ∀ call ∈ early, call.adds = none) :
    addedFirst (later ++ .absorb task :: early) = some task := by
  have none : early.filterMap Call.adds = [] := List.filterMap_eq_nil_iff.mpr quiet
  simp [addedFirst,List.filterMap_append,Call.adds,none]

namespace Session
variable (cfg : Config) (world : World)

/-- A Bid still standing is on file, and known to have been sent. -/
def Remembers (s : Session) : Prop := ∀ taskId, standing taskId s.log = true →
  ∃ p, s.bids.get? taskId = some p ∧ p.sentAt.isSome = true

theorem remembers_waits (s : Session) (taskId : Int) (p : PendingBid) (before : s.Remembers)
    (found : s.bids.get? taskId = some p) (waits : p.sentAt = none) : standing taskId s.log = false := by
  by_contra stands
  obtain ⟨q,there,sent⟩ := before taskId (by simpa using stands)
  rw [found] at there
  injection there with there
  rw [← there,waits] at sent
  cases sent

theorem remembers_elsewhere (s t : Session) (taskId : Int)
    (log : ∀ id, id ≠ taskId → standing id t.log = standing id s.log)
    (bids : ∀ id, id ≠ taskId → t.bids.get? id = s.bids.get? id)
    (here : standing taskId t.log = false) (before : s.Remembers) : t.Remembers := by
  intro id stands
  by_cases same : id = taskId
  · rw [same,here] at stands
    cases stands
  · rw [log id same] at stands
    rw [bids id same]
    exact before id stands

theorem turn_remembers (op : Op) (s t : Session) (turn : Turn op s t) (keyed : s.BidsKeyed)
    (before : s.Remembers) : t.Remembers := by
  cases turn with
  | beside t beside =>
    obtain ⟨added,grown,quiet⟩ := beside.log
    intro taskId stands
    rw [grown,standing_quiet taskId added s.log] at stands
    · rw [beside.bids]
      exact before taskId stands
    · intro call member
      refine ⟨bidOn_owner taskId call (quiet call member),?_⟩
      have owner := quiet call member
      cases call with
      | received message tasks => cases owner
      | _ => rfl
  | heard message same other =>
    intro taskId stands
    refine before taskId ?_
    rwa [show standing taskId (s.say (.received message s.tasks)).log = standing taskId s.log from
      standing_quiet taskId [_] s.log (by cases message <;> simp_all [Call.bidOn,Call.grantOn,Message.type])] at stands
  | granted grant same =>
    refine remembers_elsewhere s _ grant.taskId ?_ ?_ (by simp [say,standing,Call.bidOn,Call.grantOn]) before
    · intro id other
      exact standing_quiet id [_] s.log (by simp [Call.bidOn,Call.grantOn,Ne.symm other])
    · intro id other
      exact Dict.get?_pop_ne _ _ _ other
  | dropped taskId pending found waits =>
    exact remembers_elsewhere s _ taskId (fun _ _ => rfl) (fun id other => Dict.get?_pop_ne _ _ _ other)
      (remembers_waits s taskId pending before found waits) before
  | revised taskId pending after found waits same =>
    exact remembers_elsewhere s _ taskId (fun _ _ => rfl) (fun id other => Dict.get?_set_ne _ _ _ _ other)
      (remembers_waits s taskId pending before found waits) before
  | sent taskId pending now found waits =>
    intro id stands
    simp only [Dict.get?_set]
    split
    · exact ⟨_,rfl,rfl⟩
    · rename_i other
      refine before id ?_
      have away : pending.wire.taskId ≠ id := fun same =>
        other (same.symm.trans (keyed taskId pending found).1)
      rwa [show standing id (s.say (.broadcast (.bid pending.wire) true)).log = standing id s.log from
        standing_quiet id [_] s.log (by simp [Call.bidOn,Call.grantOn,away])] at stands

def Recent (now : ℚ) (s : Session) : Prop :=
  ∀ id p, s.bids.get? id = some p → remembered cfg.params now p = true

instance (now : ℚ) (s : Session) : Decidable (s.Recent cfg now) :=
  decidable_of_iff (∀ p ∈ s.bids.values, remembered cfg.params now p = true) (by
    constructor
    · intro all id p found
      exact all p ((Dict.mem_values _ _).mpr ⟨id,found⟩)
    · intro recent p member
      obtain ⟨id,found⟩ := (Dict.mem_values _ _).mp member
      exact recent id p found)

theorem turn_recent (now : ℚ) (op : Op) (s t : Session) (turn : Turn op s t) (before : s.Recent cfg now) :
    t.Recent cfg now := by
  have set : ∀ taskId (pending after : PendingBid), s.bids.get? taskId = some pending →
      after.createdAt = pending.createdAt → ∀ id p, (s.bids.set taskId after).get? id = some p →
      remembered cfg.params now p = true := by
    intro taskId pending after found same id p there
    obtain ⟨_,rfl⟩ | ⟨_,there⟩ := Dict.get?_set_cases there
    · rw [remembered,same]
      exact before taskId pending found
    · exact before id p there
  cases turn with
  | beside t beside => exact fun id p found => before id p (beside.bids ▸ found)
  | heard message same other => exact before
  | granted grant same => exact fun id p found => before id p (pop_fewer s grant.taskId id p found)
  | dropped taskId pending found waits => exact fun id p found => before id p (pop_fewer s taskId id p found)
  | revised taskId pending after found waits same => exact set taskId pending after found (by rw [same])
  | sent taskId pending now found waits => exact set taskId pending _ found rfl

theorem prune_remembers (now : ℚ) (s : Session) (recent : s.Recent cfg now) (before : s.Remembers) :
    (s.prune cfg now).Remembers := by
  intro taskId stands
  obtain ⟨p,found,sent⟩ := before taskId stands
  exact ⟨p,(Dict.get?_retain _ _ _ _).mpr ⟨found,recent taskId p found⟩,sent⟩

theorem perform_remembers (op : Op) (s : Session)
    (timely : op = .tick → s.Recent cfg (world.clock s.log)) (keyed : s.BidsKeyed) (before : s.Remembers) :
    (s.perform cfg world op).state.Remembers := by
  have through : ∀ t, Turns op s t → t.BidsKeyed ∧ t.Remembers := by
    intro t turns
    refine turns.keeps op (fun t => t.BidsKeyed ∧ t.Remembers) ?_ s t ⟨keyed,before⟩
    intro u v turn holds
    exact ⟨turn_keyed op u v turn holds.1,turn_remembers op u v turn holds.1 holds.2⟩
  by_cases isTick : op = .tick
  · have recent := timely isTick
    obtain ⟨t,turns,same | same⟩ := tick_turns cfg world s
    · rw [isTick,perform,same]
      exact (through t (isTick ▸ turns)).2
    · rw [isTick,perform,same]
      have kept := turns.keeps _ (Recent cfg (world.clock s.log)) (turn_recent cfg _ .tick) s t recent
      exact prune_remembers cfg _ t kept (through t (isTick ▸ turns)).2
  by_cases isAnnounce : ∃ m, op = .message (.taskAnnounce m)
  · obtain ⟨m,rfl⟩ := isAnnounce
    have heard := turn_remembers (.message (.taskAnnounce m)) s _
      (.heard s (.taskAnnounce m) rfl (by simp [Message.type])) keyed before
    simp only [perform,onMessage]
    split
    · exact before
    · obtain ⟨same,_⟩ | ⟨task,fitness,answers,requests,note,same⟩ := onAnnounce_cases cfg world m
        (world.clock s.log) (s.say (.received (.taskAnnounce m) s.tasks))
      · rw [Flow.state_handled,same]
        exact heard
      · rw [Flow.state_handled,same]
        refine remembers_elsewhere (s.say (.received (.taskAnnounce m) s.tasks)) _ m.taskId
          (fun _ _ => rfl) (fun id other => Dict.get?_set_ne _ _ _ _ other) ?_ heard
        by_contra stands
        obtain ⟨p,there,_⟩ := heard m.taskId (by simpa using stands)
        rw [answers.unanswered] at there
        cases there
  · push Not at isAnnounce
    exact (through _ (perform_turns cfg world op isTick isAnnounce s)).2

theorem takeOn_log (depth : Nat) (task : Task) (now : ℚ) (cause note : String) (s : Session) :
    ((s.tasks.get? task.taskId).any OwnedTask.ours = true ∧
      (takeOn cfg world (depth + 1) task now cause note s).state = s) ∨
    (s.absorb world task cause note).2.log <:+ (takeOn cfg world (depth + 1) task now cause note s).state.log := by
  simp only [takeOn]
  split
  · rename_i ours
    exact .inl ⟨ours,rfl⟩
  · right
    split
    · rename_i t same
      rw [same]
      exact List.suffix_refl _
    · rename_i result t same
      rw [same]
      split
      · refine (List.suffix_cons (.release task) t.log).trans ?_
        exact moves_log cfg world (t.unabsorb task) _ (reportWith_moves cfg world _
          (fun task now cause note s => takeOn_moves cfg world depth task now cause note s) _ _ _ _ _)
      · exact List.suffix_refl _

theorem granted_tookOn (grant : Grant) (s : Session) (p : PendingBid) (mine : grant.winnerId = cfg.nodeId)
    (peer : grant.src ≠ cfg.nodeId) (found : s.bids.get? grant.taskId = some p) (keyed : s.BidsKeyed) :
    tookOn grant false (s.perform cfg world (.message (.grant grant))).state.log = true := by
  have about : p.task.taskId = grant.taskId := (keyed grant.taskId p found).2
  have notOwn : (Message.grant grant).src ≠ cfg.nodeId := peer
  simp only [perform,onMessage,notOwn,if_false,Flow.state_handled,onGrant]
  rw [if_neg (by simp [mine])]
  have still : (s.say (.received (.grant grant) s.tasks)).bids.get? grant.taskId = some p := found
  rw [still]
  simp only
  generalize popped : ({ s.say (.received (.grant grant) s.tasks) with
    bids := (s.say (.received (.grant grant) s.tasks)).bids.pop grant.taskId } : Session) = t
  have log : t.log = .received (.grant grant) s.tasks :: s.log := by rw [← popped]; rfl
  have tasks : t.tasks = s.tasks := by rw [← popped]; rfl
  obtain ⟨ours,_⟩ | absorbed := takeOn_log cfg world world.depth p.task (world.clock s.log)
    ("won auction from " ++ toString grant.src) p.note t
  · have grows := moves_log cfg world _ _ (takeOn_moves cfg world (world.depth + 1) p.task
      (world.clock s.log) ("won auction from " ++ toString grant.src) p.note t)
    obtain ⟨added,same⟩ := grows
    rw [← same]
    refine tookOn_later grant added t.log false ?_
    rw [about,tasks] at ours
    simp [log,tookOn,ours]
  · obtain ⟨added,same⟩ := absorbed
    rw [← same]
    refine tookOn_later grant added _ false ?_
    simp [absorb,enter,enroll,say,log,tookOn,about]

theorem absorb_adds (task : Task) (cause note : String) (s : Session) :
    ∃ later, (s.absorb world task cause note).2.log =
      later ++ .absorb task :: .entered task s.futures :: s.log := ⟨[_,_],rfl⟩

theorem granted_adds (grant : Grant) (s : Session) (task : Task)
    (adds : addedFirst (newCalls s (s.perform cfg world (.message (.grant grant))).state) = some task) :
    ∃ p, s.bids.get? grant.taskId = some p ∧ p.task = task := by
  have heard : ∀ t : Session, t.log = .received (.grant grant) s.tasks :: s.log →
      addedFirst (newCalls s t) ≠ some task := by
    intro t log some
    rw [newCalls_of_log s t [.received (.grant grant) s.tasks] log] at some
    cases some
  simp only [perform,onMessage] at adds
  split at adds
  · rw [Flow.state_returned,newCalls_of_log s s [] rfl] at adds
    cases adds
  · rw [Flow.state_handled] at adds
    simp only [onGrant] at adds
    split at adds
    · exact absurd adds (heard _ rfl)
    · split at adds
      · exact absurd adds (heard _ rfl)
      · rename_i p found
        refine ⟨p,found,?_⟩
        generalize popped : ({ s.say (.received (.grant grant) s.tasks) with
          bids := (s.say (.received (.grant grant) s.tasks)).bids.pop grant.taskId } : Session) = t at adds
        have log : t.log = .received (.grant grant) s.tasks :: s.log := by rw [← popped]; rfl
        obtain ⟨_,same⟩ | ⟨later,grown⟩ := takeOn_log cfg world world.depth p.task (world.clock s.log)
          ("won auction from " ++ toString grant.src) p.note t
        · rw [same] at adds
          exact absurd adds (heard t log)
        · obtain ⟨after,absorbed⟩ := absorb_adds world p.task ("won auction from " ++ toString grant.src) p.note t
          rw [absorbed,log] at grown
          have calls := newCalls_of_log s _ (later ++ (after ++ .absorb p.task :: .entered p.task t.futures ::
            [.received (.grant grant) s.tasks])) (by rw [← grown]; simp)
          rw [calls,← List.append_assoc,addedFirst_absorb _ _ _ (by simp [Call.adds])] at adds
          injection adds

end Session
end AmigaFleet.Coordinator
