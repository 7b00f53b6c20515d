import AmigaFleet.Lib.Machine
import AmigaFleet.Runner.Reporter

/-! The runner of missions: a mailbox of one mission, one tree at a time, and a reporter
for each tree. Loading a mission and ticking a tree are the library's. -/
namespace AmigaFleet.Runner
open Lib

structure Params where
  xmlValidation : Bool := true
  faultReporting : Bool := true
  faultMinIntervalSec : ℚ := 5

/-- What a mission came to: the status changes of its tree's nodes, those of them that
were published, and how the tree ended. -/
structure Run where
  text : String
  tree : List TreeNode
  changes : List Transition := []
  told : List Transition := []
  outcome : Option (ℚ × NodeStatus) := none

/-- What a run published. -/
def Run.events (r : Run) : List (List (String × Json)) :=
  r.told.map Transition.event ++ (r.outcome.map (fun o => treeOutcome o.1 o.2)).toList

/-- The missions received and those taken out of the mailbox are kept for the record,
with the runs that ended. -/
structure BtRunner where
  pendingMission : Option String := none
  running : Option (Run × Option FaultReporter) := none
  ok : Bool := true
  topic : List (List (String × Json)) := []
  received : List String := []
  taken : List String := []
  finished : List Run := []

/-- The subscription's callback; a turn of the outer loop; `tickOnce` with the changes it
tells of, the status it returns and the clock then; and the end of ROS. -/
inductive Happening where
  | mission (text : String)
  | poll
  | tick (changes : List Transition) (status : NodeStatus) (now : ℚ)
  | shutdown

namespace BtRunner

def runs (s : BtRunner) : List Run := s.finished ++ (s.running.map Prod.fst).toList

section
variable (p : Params) (validate : String → Bool) (createTreeFromText : String → Option (List TreeNode))

/-- The tree of a mission, or nothing where it is refused. -/
def load (text : String) : Option (List TreeNode) :=
  if p.xmlValidation && !validate text then none else createTreeFromText text

def poll (s : BtRunner) : BtRunner :=
  match s.pendingMission with
  | none => s
  | some text =>
    let s := { s with pendingMission := none, taken := s.taken ++ [text] }
    match load p validate createTreeFromText text with
    | none => s
    | some tree =>
      { s with
        running := some ({ text, tree },
          if p.faultReporting then some { minIntervalSec := p.faultMinIntervalSec } else none) }

/-- What the reporter of a tree publishes of a tick's changes, where there is one. -/
def hears (reporter : Option FaultReporter) (changes : List Transition) : List Transition × Option FaultReporter :=
  match reporter with
  | none => ([],none)
  | some r => ((r.callbacks changes).1,some (r.callbacks changes).2)

def tick (s : BtRunner) (changes : List Transition) (status : NodeStatus) (now : ℚ) : BtRunner :=
  match s.running with
  | none => s
  | some (run,reporter) =>
    let (told,reporter) := hears reporter changes
    let run := { run with changes := run.changes ++ changes, told := run.told ++ told }
    let topic := s.topic ++ told.map Transition.event
    if status = .success ∨ status = .failure then
      { s with
        running := none
        finished := s.finished ++ [{ run with outcome := some (now,status) }]
        topic := if reporter.isSome then topic ++ [treeOutcome now status] else topic }
    else { s with running := some (run,reporter), topic }

def next (s : BtRunner) : Happening → BtRunner
  | .mission text => { s with pendingMission := some text, received := s.received ++ [text] }
  | .poll => s.poll p validate createTreeFromText
  | .tick changes status now => s.tick changes status now
  | .shutdown => { s with ok := false }

def enabled (s : BtRunner) : Happening → Prop
  | .mission _ => s.ok = true
  | .poll => s.ok = true ∧ s.running.isNone = true
  | .tick changes _ _ => s.ok = true ∧ s.running.any (fun r => changes.all (fun t => r.1.tree.contains t.node)) = true
  | .shutdown => True

instance (s : BtRunner) : (h : Happening) → Decidable (s.enabled h)
  | .mission _ => inferInstanceAs (Decidable (s.ok = true))
  | .poll => inferInstanceAs (Decidable (_ ∧ _))
  | .tick _ _ _ => inferInstanceAs (Decidable (_ ∧ _))
  | .shutdown => inferInstanceAs (Decidable True)

/-- The node from its start, under any order of missions and turns of its loops. -/
def machine : Machine BtRunner Happening where
  initial := fun s => s = {}
  enabled := enabled
  next := next p validate createTreeFromText

instance (s : BtRunner) (h : Happening) : Decidable ((machine p validate createTreeFromText).enabled s h) :=
  inferInstanceAs (Decidable (s.enabled h))

/-- A run of a tree that the mission gives, whose changes are of its nodes. -/
structure Sound (run : Run) : Prop where
  loaded : load p validate createTreeFromText run.text = some run.tree
  inside : ∀ t ∈ run.changes, t.node ∈ run.tree

/-- What was published of a run, by the reporter it has if any. -/
def Told (run : Run) : Option FaultReporter → Prop
  | none => p.faultReporting = false ∧ run.told = []
  | some r => p.faultReporting = true ∧ r.minIntervalSec = p.faultMinIntervalSec ∧ r.Faithful run.changes run.told

structure Kept (s : BtRunner) : Prop where
  newest : s.received.getLast? = (s.taken ++ s.pendingMission.toList).getLast?
  inOrder : (s.taken ++ s.pendingMission.toList).Sublist s.received
  started : s.runs.map Run.text = s.taken.filter (fun text => (load p validate createTreeFromText text).isSome)
  sound : ∀ run ∈ s.runs, Sound p validate createTreeFromText run
  ended : ∀ run ∈ s.finished, ∃ now status, run.outcome = some (now,status) ∧ (status = .success ∨ status = .failure)
  told : ∀ run ∈ s.finished, ∃ reporter, Told p run reporter
  current : ∀ run reporter, s.running = some (run,reporter) → run.outcome = none ∧ Told p run reporter
  topic : s.topic = if p.faultReporting then s.runs.flatMap Run.events else []

variable {p validate createTreeFromText}

theorem callbacks_interval (r : FaultReporter) (changes : List Transition) :
    (r.callbacks changes).2.minIntervalSec = r.minIntervalSec := by
  induction changes generalizing r with
  | nil => rfl
  | cons t rest ih =>
    have one : (r.callback t).2.minIntervalSec = r.minIntervalSec := by
      rw [FaultReporter.callback_eq,FaultReporter.note]
      split_ifs <;> rfl
    exact (ih _).trans one

/-- A tick's changes are told as the reporter tells them. -/
theorem Told.hears (run : Run) (reporter : Option FaultReporter) (told : Told p run reporter)
    (changes : List Transition) :
    Told p { run with changes := run.changes ++ changes, told := run.told ++ (hears reporter changes).1 }
      (BtRunner.hears reporter changes).2 := by
  cases reporter with
  | none => exact ⟨told.1,by simpa [BtRunner.hears] using told.2⟩
  | some r =>
    obtain ⟨reporting,interval,faithful⟩ := told
    exact ⟨reporting,(callbacks_interval r changes).trans interval,faithful.callbacks changes⟩

theorem Told.reporting (run : Run) (reporter : Option FaultReporter) (told : Told p run reporter) :
    reporter.isSome = p.faultReporting := by
  cases reporter with
  | none => exact told.1.symm
  | some r => exact told.1.symm

theorem poll_empty (s : BtRunner) (empty : s.pendingMission = none) : s.poll p validate createTreeFromText = s := by
  rw [BtRunner.poll,empty]

theorem poll_refused (s : BtRunner) (text : String) (pending : s.pendingMission = some text)
    (refused : load p validate createTreeFromText text = none) :
    s.poll p validate createTreeFromText = { s with pendingMission := none, taken := s.taken ++ [text] } := by
  simp only [BtRunner.poll,pending,refused]

theorem poll_loaded (s : BtRunner) (text : String) (tree : List TreeNode) (pending : s.pendingMission = some text)
    (loads : load p validate createTreeFromText text = some tree) :
    s.poll p validate createTreeFromText =
      { s with
        pendingMission := none
        taken := s.taken ++ [text]
        running := some ({ text, tree },
          if p.faultReporting then some { minIntervalSec := p.faultMinIntervalSec } else none) } := by
  simp only [BtRunner.poll,pending,loads]

/-- The run after a tick, and its outcome where it has one. -/
def ticked (run : Run) (reporter : Option FaultReporter) (changes : List Transition)
    (outcome : Option (ℚ × NodeStatus)) : Run :=
  { run with changes := run.changes ++ changes, told := run.told ++ (hears reporter changes).1, outcome }

theorem tick_over (s : BtRunner) (changes : List Transition) (status : NodeStatus) (now : ℚ) (run : Run)
    (reporter : Option FaultReporter) (here : s.running = some (run,reporter))
    (ended : status = .success ∨ status = .failure) :
    s.tick changes status now =
      { s with
        running := none
        finished := s.finished ++ [ticked run reporter changes (some (now,status))]
        topic := s.topic ++ (hears reporter changes).1.map Transition.event ++
          if (hears reporter changes).2.isSome then [treeOutcome now status] else [] } := by
  simp only [BtRunner.tick,here,if_pos ended,ticked]
  split_ifs with heard
  · rfl
  · rw [List.append_nil]

theorem tick_on (s : BtRunner) (changes : List Transition) (status : NodeStatus) (now : ℚ) (run : Run)
    (reporter : Option FaultReporter) (here : s.running = some (run,reporter))
    (on : ¬(status = .success ∨ status = .failure)) :
    s.tick changes status now =
      { s with
        running := some (ticked run reporter changes run.outcome,(hears reporter changes).2)
        topic := s.topic ++ (hears reporter changes).1.map Transition.event } := by
  simp only [BtRunner.tick,here,if_neg on,ticked]

namespace Kept
variable {s : BtRunner}

theorem mission (kept : Kept p validate createTreeFromText s) (text : String) :
    Kept p validate createTreeFromText { s with pendingMission := some text, received := s.received ++ [text] } := by
  refine { kept with newest := ?_, inOrder := ?_ }
  · simp
  · have taken := (List.sublist_append_left _ _).trans kept.inOrder
    exact taken.append (List.Sublist.refl _)

theorem poll (kept : Kept p validate createTreeFromText s) (idle : s.running = none) :
    Kept p validate createTreeFromText (s.poll p validate createTreeFromText) := by
  cases pending : s.pendingMission with
  | none =>
    rw [poll_empty s pending]
    exact kept
  | some text =>
    have newest : s.received.getLast? = (s.taken ++ [text]).getLast? := by
      rw [kept.newest,pending,Option.toList_some]
    have inOrder : (s.taken ++ [text]).Sublist s.received := by
      have before := kept.inOrder
      rwa [pending,Option.toList_some] at before
    have runs : s.runs = s.finished := by simp [BtRunner.runs,idle]
    have started := kept.started
    rw [runs] at started
    cases loads : load p validate createTreeFromText text with
    | none =>
      rw [poll_refused s text pending loads]
      refine { kept with newest := by simpa using newest, inOrder := by simpa using inOrder, started := ?_ }
      rw [List.filter_append,← started]
      simp [BtRunner.runs,idle,loads]
    | some tree =>
      rw [poll_loaded s text tree pending loads]
      refine ⟨by simpa using newest,by simpa using inOrder,?_,?_,kept.ended,kept.told,?_,?_⟩
      · rw [List.filter_append,← started]
        simp [BtRunner.runs,loads]
      · intro run member
        obtain before | here := List.mem_append.mp member
        · exact kept.sound run (by rw [runs]; exact before)
        · have same : run = { text, tree } := by simpa using here
          rw [same]
          exact ⟨loads,fun t absent => absurd absent List.not_mem_nil⟩
      · intro run reporter same
        injection same with same
        injection same with one other
        rw [← one,← other]
        refine ⟨rfl,?_⟩
        cases reporting : p.faultReporting with
        | true => exact ⟨reporting,rfl,FaultReporter.Faithful.start _⟩
        | false => exact ⟨reporting,rfl⟩
      · rw [kept.topic,runs]
        simp [BtRunner.runs,Run.events]

section
variable {run : Run} {reporter : Option FaultReporter} {changes : List Transition}

theorem ticked_sound (kept : Kept p validate createTreeFromText s) (here : s.running = some (run,reporter))
    (inside : ∀ t ∈ changes, t.node ∈ run.tree) (outcome : Option (ℚ × NodeStatus)) :
    ∀ other ∈ s.finished ++ [ticked run reporter changes outcome], Sound p validate createTreeFromText other := by
  intro other member
  obtain before | last := List.mem_append.mp member
  · exact kept.sound other (by simp [BtRunner.runs,before])
  · have mine := kept.sound run (by simp [BtRunner.runs,here])
    rw [List.mem_singleton.mp last]
    refine ⟨mine.loaded,?_⟩
    intro t changed
    exact (List.mem_append.mp changed).elim (mine.inside t) (inside t)

theorem ticked_started (kept : Kept p validate createTreeFromText s) (here : s.running = some (run,reporter)) :
    s.finished.map Run.text ++ [run.text] =
      s.taken.filter (fun text => (load p validate createTreeFromText text).isSome) := by
  rw [← kept.started]
  simp [BtRunner.runs,here]

/-- What the topic holds before a tick, with what the tick tells. -/
theorem ticked_topic (kept : Kept p validate createTreeFromText s) (here : s.running = some (run,reporter)) :
    s.topic ++ (hears reporter changes).1.map Transition.event =
      if p.faultReporting then
        s.finished.flatMap Run.events ++ (ticked run reporter changes none).events
      else [] := by
  obtain ⟨unended,told⟩ := kept.current run reporter here
  rw [kept.topic]
  cases reporting : p.faultReporting with
  | true => simp [BtRunner.runs,here,Run.events,unended,ticked]
  | false =>
    cases reporter with
    | none => rfl
    | some r => exact absurd told.1 (by simp [reporting])

theorem tick_over (kept : Kept p validate createTreeFromText s) (here : s.running = some (run,reporter))
    (inside : ∀ t ∈ changes, t.node ∈ run.tree) (status : NodeStatus) (now : ℚ)
    (ended : status = .success ∨ status = .failure) :
    Kept p validate createTreeFromText (s.tick changes status now) := by
  have after := (kept.current run reporter here).2.hears run reporter changes
  have reporting : (hears reporter changes).2.isSome = p.faultReporting := after.reporting _ _
  rw [BtRunner.tick_over s changes status now run reporter here ended]
  refine ⟨kept.newest,kept.inOrder,?_,?_,?_,?_,?_,?_⟩
  · rw [← kept.ticked_started here]
    simp [BtRunner.runs,ticked]
  · have sound := kept.ticked_sound here inside (some (now,status))
    simpa only [BtRunner.runs,Option.map_none,Option.toList_none,List.append_nil] using sound
  · intro other member
    obtain before | last := List.mem_append.mp member
    · exact kept.ended other before
    · exact ⟨now,status,by rw [List.mem_singleton.mp last]; rfl,ended⟩
  · intro other member
    obtain before | last := List.mem_append.mp member
    · exact kept.told other before
    · refine ⟨(hears reporter changes).2,?_⟩
      rw [List.mem_singleton.mp last]
      cases answer : (hears reporter changes).2 with
      | none => rwa [answer] at after
      | some r => rwa [answer] at after
  · exact fun _ _ none_ => absurd none_ (by simp)
  · rw [kept.ticked_topic here,reporting]
    cases p.faultReporting <;> simp [BtRunner.runs,Run.events,ticked]

theorem tick_on (kept : Kept p validate createTreeFromText s) (here : s.running = some (run,reporter))
    (inside : ∀ t ∈ changes, t.node ∈ run.tree) (status : NodeStatus) (now : ℚ)
    (on : ¬(status = .success ∨ status = .failure)) :
    Kept p validate createTreeFromText (s.tick changes status now) := by
  obtain ⟨unended,told⟩ := kept.current run reporter here
  rw [BtRunner.tick_on s changes status now run reporter here on]
  refine ⟨kept.newest,kept.inOrder,?_,?_,kept.ended,kept.told,?_,?_⟩
  · rw [← kept.ticked_started here]
    simp [BtRunner.runs,ticked]
  · exact kept.ticked_sound here inside run.outcome
  · intro other rep same
    injection same with same
    injection same with one two
    rw [← one,← two]
    exact ⟨unended,told.hears run reporter changes⟩
  · rw [kept.ticked_topic here,← unended]
    simp [BtRunner.runs]

end
end Kept

theorem machine_kept (s : BtRunner) (reached : (machine p validate createTreeFromText).Reachable s) :
    Kept p validate createTreeFromText s := by
  apply reached.invariant
  · rintro _ rfl
    refine ⟨rfl,List.Sublist.slnil,rfl,?_,?_,?_,?_,?_⟩
    · exact fun _ absent => absurd absent List.not_mem_nil
    · exact fun _ absent => absurd absent List.not_mem_nil
    · exact fun _ absent => absurd absent List.not_mem_nil
    · exact fun _ _ none_ => absurd none_ (by simp)
    · simp [BtRunner.runs]
  · intro s label _ kept enabled _
    cases label with
    | mission text => exact kept.mission text
    | poll => exact kept.poll (Option.isNone_iff_eq_none.mp enabled.2)
    | tick changes status now =>
      obtain ⟨⟨run,reporter⟩,here,inside⟩ := (Option.any_eq_true _ _).mp enabled.2
      have within : ∀ t ∈ changes, t.node ∈ run.tree := by simpa using inside
      by_cases ended : status = .success ∨ status = .failure
      · exact kept.tick_over here within status now ended
      · exact kept.tick_on here within status now ended
    | shutdown => exact { kept with }

/-- The reporter behind what was told of a run. -/
theorem Kept.reporter {s : BtRunner} (kept : Kept p validate createTreeFromText s) (run : Run) (member : run ∈ s.runs) :
    ∃ reporter, Told p run reporter := by
  obtain ended | here := List.mem_append.mp member
  · exact kept.told run ended
  · obtain ⟨⟨current,reporter⟩,running,same⟩ := Option.map_eq_some_iff.mp (Option.mem_toList.mp here)
    rw [← same]
    exact ⟨reporter,(kept.current current reporter running).2⟩

theorem Kept.faithful {s : BtRunner} (kept : Kept p validate createTreeFromText s)
    (reporting : p.faultReporting = true) (run : Run) (member : run ∈ s.runs) :
    ∃ r : FaultReporter, r.minIntervalSec = p.faultMinIntervalSec ∧ r.Faithful run.changes run.told := by
  obtain ⟨reporter,told⟩ := kept.reporter run member
  cases reporter with
  | none => exact absurd told.1 (by simp [reporting])
  | some r => exact ⟨r,told.2⟩

/-- The newest mission is never lost, and every other one that the mailbox gave up was
replaced. What was taken and loads ran, in order; every tree but the last has ended, and
the topic holds what each run published and then, where it ended, how. -/
theorem missions_run (s : BtRunner) (reached : (machine p validate createTreeFromText).Reachable s) :
    s.received.getLast? = (s.taken ++ s.pendingMission.toList).getLast? ∧
    (s.taken ++ s.pendingMission.toList).Sublist s.received ∧
    s.runs.map Run.text = s.taken.filter (fun text => (load p validate createTreeFromText text).isSome) ∧
    (∀ run ∈ s.runs, load p validate createTreeFromText run.text = some run.tree) ∧
    s.topic = (if p.faultReporting then s.runs.flatMap Run.events else []) ∧
    (∀ run ∈ s.finished, ∃ now status, run.outcome = some (now,status) ∧ (status = .success ∨ status = .failure)) ∧
    ∀ run reporter, s.running = some (run,reporter) → run.outcome = none := by
  have kept := machine_kept s reached
  exact ⟨kept.newest,kept.inOrder,kept.started,fun run member => (kept.sound run member).loaded,kept.topic,kept.ended,
    fun run reporter here => (kept.current run reporter here).1⟩

/-- Of a run, nothing is published but failures of leaves and successes of actions, in
order. Each of them is, or one of its node and status is that came before it within the
interval; and two in a row of one node and status are an interval apart. -/
theorem changes_told (s : BtRunner) (reached : (machine p validate createTreeFromText).Reachable s)
    (reporting : p.faultReporting = true) (run : Run) (member : run ∈ s.runs) :
    run.told.Sublist (run.changes.filter Transition.notable) ∧
    (∀ front t back, run.changes = front ++ t::back → t.notable = true → ∃ ahead, ahead <+: run.told ∧
      ahead.Sublist (front ++ [t]) ∧ ∃ e ∈ ahead, FaultReporter.kind e = FaultReporter.kind t ∧
        (e = t ∨ t.now - e.now < p.faultMinIntervalSec)) ∧
    ∀ k, (run.told.filter (fun t => FaultReporter.kind t = k)).IsChain
      (fun a b => p.faultMinIntervalSec ≤ b.now - a.now) := by
  obtain ⟨r,interval,faithful⟩ := (machine_kept s reached).faithful reporting run member
  rw [← interval]
  exact ⟨faithful.sublist,fun front t back split notable => faithful.covered front back t split notable,
    faithful.spaced⟩

end

/-- A leaf that samples, under a node that retries it. -/
def sampler : TreeNode := ⟨2,"sample_60","SampleLeaf","retry/sample_60",.action⟩

def retry : TreeNode := ⟨1,"retry","RetryUntilSuccessful","retry",.decorator⟩

def planted (text : String) : Option (List TreeNode) := if text = "m" then some [retry,sampler] else none

/-- A mission is replaced before it is taken. The leaf fails twice within the interval, and then succeeds. -/
def sampled : BtRunner := (machine {} (fun _ => true) planted).runs {}
  [.mission "x",.mission "m",.poll,.tick [⟨0,sampler,.idle,.failure⟩] .running 0,
    .tick [⟨1,sampler,.idle,.failure⟩] .running 1,.mission "n",.tick [⟨2,sampler,.idle,.success⟩] .success 2,.poll]

theorem sampled_reached : (machine {} (fun _ => true) planted).Reachable sampled :=
  (machine {} (fun _ => true) planted).reaches_runs _ {} _ (.start _ rfl) (by decide)

theorem missions_run_sampled : sampled.received = ["x","m","n"] ∧ sampled.taken = ["m","n"] ∧
    sampled.runs.map Run.text = ["m"] ∧ sampled.topic = sampled.runs.flatMap Run.events := by
  have run := missions_run sampled sampled_reached
  exact ⟨rfl,rfl,rfl,run.2.2.2.2.1⟩

theorem changes_told_sampled : sampled.runs.map (fun run => run.told.map Transition.now) = [[0,2]] ∧
    ∀ run ∈ sampled.runs, run.told.Sublist (run.changes.filter Transition.notable) :=
  ⟨by decide +kernel,fun run member => (changes_told sampled sampled_reached rfl run member).1⟩

end BtRunner
end AmigaFleet.Runner
