import Mathlib.Data.List.Flatten
import Mathlib.Data.List.Nodup
import Mathlib.Data.List.Pairwise

/-! Trees of labelled branches and leaves. A reference tells apart elements with
equal labels, as object identity does. Document order is the order of `leaves`. -/
namespace Lib

/-- Where no element occurs twice in what the items hold, one that holds it is at one place. -/
theorem flatMap_place {γ δ : Type} (f : γ → List δ) (before before' after after' : List γ) (u v : γ) (x : δ)
    (distinct : ((before ++ u :: after).flatMap f).Nodup) (same : before ++ u :: after = before' ++ v :: after')
    (one : x ∈ f u) (other : x ∈ f v) : before = before' ∧ u = v ∧ after = after' := by
  have early (first rest : List γ) (w : γ) (held : x ∈ f w) (cut : before ++ u :: after = first ++ w :: rest)
      (y : γ) (member : y ∈ first) : x ∉ f y := by
    rw [cut,List.flatMap_append,List.nodup_append] at distinct
    exact fun also => distinct.2.2 x (List.mem_flatMap.mpr ⟨y,member,also⟩) x
      (List.mem_flatMap.mpr ⟨w,by simp,held⟩) rfl
  rcases List.append_eq_append_iff.mp same with ⟨mid,rfl,rest⟩ | ⟨mid,rfl,rest⟩
  · cases mid with
    | nil =>
      obtain ⟨rfl,rfl⟩ := List.cons.inj rest
      exact ⟨by simp,rfl,rfl⟩
    | cons w mid =>
      obtain ⟨rfl,-⟩ := List.cons.inj rest
      exact absurd one (early _ _ v other same u (by simp))
  · cases mid with
    | nil =>
      obtain ⟨rfl,rfl⟩ := List.cons.inj rest
      exact ⟨by simp,rfl,rfl⟩
    | cons w mid =>
      obtain ⟨rfl,-⟩ := List.cons.inj rest
      exact absurd other (early _ _ u one rfl v (by simp))

theorem flatMap_unique {γ δ : Type} (f : γ → List δ) (items : List γ) (distinct : (items.flatMap f).Nodup) (u v : γ)
    (left : u ∈ items) (right : v ∈ items) (x : δ) (one : x ∈ f u) (other : x ∈ f v) : u = v := by
  obtain ⟨before,after,rfl⟩ := List.append_of_mem left
  obtain ⟨before',after',same⟩ := List.append_of_mem right
  exact (flatMap_place f before before' after after' u v x distinct same one other).2.1

inductive Tree (β α : Type) where
  | leaf (ref : Nat) (label : α)
  | node (ref : Nat) (label : β) (children : List (Tree β α))

namespace Tree
variable {β α : Type}

mutual
def decEq [DecidableEq β] [DecidableEq α] : (s t : Tree β α) → Decidable (s = t)
  | .leaf ref a,.leaf ref' a' => decidable_of_iff (ref = ref' ∧ a = a') (by simp)
  | .leaf _ _,.node _ _ _ => isFalse (by simp)
  | .node _ _ _,.leaf _ _ => isFalse (by simp)
  | .node ref b children,.node ref' b' children' =>
    have := decEqAll children children'
    decidable_of_iff (ref = ref' ∧ b = b' ∧ children = children') (by simp)
def decEqAll [DecidableEq β] [DecidableEq α] : (ss ts : List (Tree β α)) → Decidable (ss = ts)
  | [],[] => isTrue rfl
  | [],_::_ => isFalse (by simp)
  | _::_,[] => isFalse (by simp)
  | s::ss,t::ts =>
    have := decEq s t
    have := decEqAll ss ts
    decidable_of_iff (s = t ∧ ss = ts) (by simp)
end

instance [DecidableEq β] [DecidableEq α] : DecidableEq (Tree β α) := decEq

mutual
@[elab_as_elim]
theorem induct {motive : Tree β α → Prop} (leaf : ∀ ref label, motive (.leaf ref label))
    (node : ∀ ref label children, (∀ child ∈ children, motive child) → motive (.node ref label children)) :
    ∀ t, motive t
  | .leaf ref label => leaf ref label
  | .node ref label children => node ref label children (inductAll leaf node children)
theorem inductAll {motive : Tree β α → Prop} (leaf : ∀ ref label, motive (.leaf ref label))
    (node : ∀ ref label children, (∀ child ∈ children, motive child) → motive (.node ref label children)) :
    ∀ children : List (Tree β α), ∀ child ∈ children, motive child
  | [] => List.forall_mem_nil _
  | first::rest => List.forall_mem_cons.mpr ⟨induct leaf node first,inductAll leaf node rest⟩
end

def ref : Tree β α → Nat
  | leaf ref _ => ref
  | node ref _ _ => ref

def children : Tree β α → List (Tree β α)
  | leaf _ _ => []
  | node _ _ children => children

def isLeaf : Tree β α → Bool
  | leaf _ _ => true
  | node _ _ _ => false

@[simp] theorem ref_leaf (r : Nat) (a : α) : (leaf r a : Tree β α).ref = r := rfl
@[simp] theorem ref_node (r : Nat) (b : β) (cs : List (Tree β α)) : (node r b cs).ref = r := rfl
@[simp] theorem isLeaf_leaf (r : Nat) (a : α) : (leaf r a : Tree β α).isLeaf = true := rfl
@[simp] theorem isLeaf_node (r : Nat) (b : β) (cs : List (Tree β α)) : (node r b cs).isLeaf = false := rfl

mutual
/-- The leaves in document order. -/
def leaves : Tree β α → List (Nat × α)
  | leaf ref label => [(ref,label)]
  | node _ _ children => leavesAll children
def leavesAll : List (Tree β α) → List (Nat × α)
  | [] => []
  | child::rest => leaves child ++ leavesAll rest
end

theorem leavesAll_eq (cs : List (Tree β α)) : leavesAll cs = cs.flatMap leaves := by
  induction cs with
  | nil => rfl
  | cons c cs ih => rw [leavesAll,ih,List.flatMap_cons]

@[simp] theorem leaves_leaf (r : Nat) (a : α) : (leaf r a : Tree β α).leaves = [(r,a)] := rfl
@[simp] theorem leaves_node (r : Nat) (b : β) (cs : List (Tree β α)) :
    (node r b cs).leaves = cs.flatMap leaves := leavesAll_eq cs

mutual
/-- Every element, a branch before what it holds. -/
def iter : Tree β α → List (Tree β α)
  | leaf ref label => [leaf ref label]
  | node ref label children => node ref label children :: iterAll children
def iterAll : List (Tree β α) → List (Tree β α)
  | [] => []
  | child::rest => iter child ++ iterAll rest
end

theorem iterAll_eq (cs : List (Tree β α)) : iterAll cs = cs.flatMap iter := by
  induction cs with
  | nil => rfl
  | cons c cs ih => rw [iterAll,ih,List.flatMap_cons]

@[simp] theorem iter_leaf (r : Nat) (a : α) : (leaf r a : Tree β α).iter = [leaf r a] := rfl
@[simp] theorem iter_node (r : Nat) (b : β) (cs : List (Tree β α)) :
    (node r b cs).iter = node r b cs :: cs.flatMap iter := by
  rw [iter,iterAll_eq]

theorem self_mem_iter (t : Tree β α) : t ∈ t.iter := by cases t <;> simp

/-- The references of all elements, in the order of `iter`. -/
def refs (t : Tree β α) : List Nat := t.iter.map ref

@[simp] theorem refs_leaf (r : Nat) (a : α) : (leaf r a : Tree β α).refs = [r] := rfl
@[simp] theorem refs_node (r : Nat) (b : β) (cs : List (Tree β α)) :
    (node r b cs).refs = r :: cs.flatMap refs := by
  simp only [refs,iter_node,List.map_cons,ref_node,List.map_flatMap]
  rfl

theorem ref_mem_refs (t : Tree β α) : t.ref ∈ t.refs := by cases t <;> simp

theorem leaf_mem_refs (t : Tree β α) (x : Nat × α) (member : x ∈ t.leaves) : x.1 ∈ t.refs := by
  induction t using induct with
  | leaf r a => simp_all
  | node r b cs ih =>
    obtain ⟨c,inside,held⟩ := by simpa using member
    simp only [refs_node,List.mem_cons,List.mem_flatMap]
    exact .inr ⟨c,inside,ih c inside held⟩

mutual
/-- Every element below the root whose reference is picked is cut out. -/
def strip (p : Nat → Bool) : Tree β α → Tree β α
  | leaf ref label => leaf ref label
  | node ref label children => node ref label (stripAll p children)
def stripAll (p : Nat → Bool) : List (Tree β α) → List (Tree β α)
  | [] => []
  | child::rest => if p child.ref then stripAll p rest else strip p child :: stripAll p rest
end

@[simp] theorem ref_strip (p : Nat → Bool) (t : Tree β α) : (t.strip p).ref = t.ref := by
  cases t <;> rfl

theorem stripAll_eq (p : Nat → Bool) (cs : List (Tree β α)) :
    stripAll p cs = (cs.filter (fun c => !p c.ref)).map (strip p) := by
  induction cs with
  | nil => rfl
  | cons c cs ih =>
    rw [stripAll,ih]
    cases picked : p c.ref <;> simp [picked]

@[simp] theorem strip_leaf (p : Nat → Bool) (r : Nat) (a : α) :
    (leaf r a : Tree β α).strip p = leaf r a := rfl
@[simp] theorem strip_node (p : Nat → Bool) (r : Nat) (b : β) (cs : List (Tree β α)) :
    (node r b cs).strip p = node r b ((cs.filter (fun c => !p c.ref)).map (strip p)) := by
  rw [strip,stripAll_eq]

mutual
/-- The same tree of other elements. -/
def relabel (f : Nat → Nat) : Tree β α → Tree β α
  | leaf ref label => leaf (f ref) label
  | node ref label children => node (f ref) label (relabelAll f children)
def relabelAll (f : Nat → Nat) : List (Tree β α) → List (Tree β α)
  | [] => []
  | child::rest => relabel f child :: relabelAll f rest
end

theorem relabelAll_eq (f : Nat → Nat) (cs : List (Tree β α)) : relabelAll f cs = cs.map (relabel f) := by
  induction cs with
  | nil => rfl
  | cons c cs ih => rw [relabelAll,ih,List.map_cons]

@[simp] theorem relabel_leaf (f : Nat → Nat) (r : Nat) (a : α) :
    (leaf r a : Tree β α).relabel f = leaf (f r) a := rfl
@[simp] theorem relabel_node (f : Nat → Nat) (r : Nat) (b : β) (cs : List (Tree β α)) :
    (node r b cs).relabel f = node (f r) b (cs.map (relabel f)) := by
  rw [relabel,relabelAll_eq]

@[simp] theorem isLeaf_relabel (f : Nat → Nat) (t : Tree β α) : (t.relabel f).isLeaf = t.isLeaf := by
  cases t <;> rfl

theorem leaves_relabel (f : Nat → Nat) (t : Tree β α) :
    (t.relabel f).leaves = t.leaves.map (fun x => (f x.1,x.2)) := by
  induction t using induct with
  | leaf r a => rfl
  | node r b cs ih =>
    rw [relabel_node,leaves_node,leaves_node,List.flatMap_map,List.map_flatMap]
    exact List.flatMap_congr ih

/-- Everything below the root. -/
def beneath (t : Tree β α) : List (Tree β α) := t.children.flatMap iter

/-- No two elements of the tree have one reference. -/
def Distinct (t : Tree β α) : Prop := t.refs.Nodup

instance (t : Tree β α) : Decidable t.Distinct := inferInstanceAs (Decidable (List.Nodup _))

namespace Distinct
variable {r : Nat} {b : β} {cs : List (Tree β α)}

theorem child (distinct : Distinct (node r b cs)) (c : Tree β α) (member : c ∈ cs) : Distinct c := by
  rw [Distinct,refs_node,List.nodup_cons] at distinct
  exact (List.nodup_flatMap.mp distinct.2).1 c member

theorem apart (distinct : Distinct (node r b cs)) (c d : Tree β α) (left : c ∈ cs) (right : d ∈ cs)
    (x : Nat) (one : x ∈ c.refs) (other : x ∈ d.refs) : c = d := by
  rw [Distinct,refs_node,List.nodup_cons] at distinct
  by_contra different
  have symmetric : Std.Symm (Function.onFun List.Disjoint (fun c : Tree β α => c.refs)) :=
    ⟨fun _ _ disjoint _ left right => disjoint right left⟩
  exact (List.nodup_flatMap.mp distinct.2).2.forall left right different one other

theorem root (distinct : Distinct (node r b cs)) (c : Tree β α) (member : c ∈ cs) : r ∉ c.refs := by
  rw [Distinct,refs_node,List.nodup_cons] at distinct
  exact fun held => distinct.1 (List.mem_flatMap.mpr ⟨c,member,held⟩)

end Distinct

theorem refs_of_iter (t s : Tree β α) (member : s ∈ t.iter) (x : Nat) (held : x ∈ s.refs) : x ∈ t.refs := by
  induction t using induct with
  | leaf r a => simp_all
  | node r b cs ih =>
    rw [iter_node,List.mem_cons,List.mem_flatMap] at member
    obtain rfl | ⟨c,inside,member⟩ := member
    · exact held
    · rw [refs_node]
      exact List.mem_cons_of_mem _ (List.mem_flatMap.mpr ⟨c,inside,ih c inside member⟩)

theorem leaves_of_iter (t s : Tree β α) (member : s ∈ t.iter) (x : Nat × α) (held : x ∈ s.leaves) : x ∈ t.leaves := by
  induction t using induct with
  | leaf r a => simp_all
  | node r b cs ih =>
    rw [iter_node,List.mem_cons,List.mem_flatMap] at member
    obtain rfl | ⟨c,inside,member⟩ := member
    · exact held
    · rw [leaves_node]
      exact List.mem_flatMap.mpr ⟨c,inside,ih c inside member⟩

/-- The leaf lies under no picked element below the root. -/
def Spared (p : Nat → Bool) (t : Tree β α) (x : Nat) : Prop :=
  ∀ s ∈ t.beneath, p s.ref = true → x ∉ s.leaves.map Prod.fst

instance (p : Nat → Bool) (t : Tree β α) (x : Nat) : Decidable (Spared p t x) :=
  inferInstanceAs (Decidable (∀ _ ∈ _, _ → _))

theorem spared_child (p : Nat → Bool) (r : Nat) (b : β) (cs : List (Tree β α)) (distinct : Distinct (node r b cs))
    (c : Tree β α) (member : c ∈ cs) (x : Nat × α) (held : x ∈ c.leaves) :
    Spared p (node r b cs) x.1 ↔ p c.ref = false ∧ Spared p c x.1 := by
  have here := leaf_mem_refs c x held
  constructor
  · intro spared
    refine ⟨?_,fun s below picked => ?_⟩
    · by_contra picked
      exact spared c (List.mem_flatMap.mpr ⟨c,member,self_mem_iter c⟩) (by simpa using picked)
        (List.mem_map_of_mem held)
    · refine spared s (List.mem_flatMap.mpr ⟨c,member,?_⟩) picked
      cases c with
      | leaf _ _ => cases below
      | node _ _ _ => exact iter_node _ _ _ ▸ List.mem_cons_of_mem _ below
  · rintro ⟨whole,spared⟩ s below picked under
    obtain ⟨d,inside,member'⟩ := List.mem_flatMap.mp below
    obtain ⟨y,deep,same⟩ := List.mem_map.mp under
    have there := leaf_mem_refs d y (leaves_of_iter d s member' y deep)
    obtain rfl := distinct.apart c d member inside x.1 here (same ▸ there)
    cases c with
    | leaf _ _ =>
      rw [iter_leaf,List.mem_singleton] at member'
      subst member'
      simp_all
    | node _ _ _ =>
      rw [iter_node,List.mem_cons] at member'
      obtain rfl | deeper := member'
      · simp_all
      · exact spared s deeper picked under

/-- What a cut leaves of the leaves, in their order. -/
theorem leaves_strip (p : Nat → Bool) (t : Tree β α) (distinct : Distinct t) :
    (t.strip p).leaves = t.leaves.filter (fun x => Spared p t x.1) := by
  induction t using induct with
  | leaf r a => simp [Spared,beneath,children]
  | node r b cs ih =>
    have kept (cs' : List (Tree β α)) (part : ∀ c ∈ cs', c ∈ cs) :
        ((cs'.filter (fun c => !p c.ref)).map (strip p)).flatMap leaves =
          (cs'.flatMap leaves).filter (fun x => Spared p (node r b cs) x.1) := by
      induction cs' with
      | nil => rfl
      | cons c rest later =>
        have member := part c (by simp)
        have alone : c.leaves.filter (fun x => Spared p (node r b cs) x.1) =
            if p c.ref then [] else (c.strip p).leaves := by
          rw [ih c member (distinct.child c member)]
          split
          · rename_i picked
            refine List.filter_eq_nil_iff.mpr fun x held => ?_
            simp [spared_child p r b cs distinct c member x held,picked]
          · rename_i spared
            refine List.filter_congr fun x held => ?_
            simp [spared_child p r b cs distinct c member x held,spared]
        rw [List.flatMap_cons,List.filter_append,alone,← later (fun d inside => part d (by simp [inside]))]
        cases picked : p c.ref <;> simp [picked]
    rw [strip_node,leaves_node,leaves_node]
    exact kept cs (fun _ member => member)

/-- Under distinct references an element is found again by its reference. -/
theorem iter_unique (t : Tree β α) (distinct : Distinct t) (a b : Tree β α) (one : a ∈ t.iter) (other : b ∈ t.iter)
    (same : a.ref = b.ref) : a = b := List.inj_on_of_nodup_map distinct one other same

theorem leaves_iter (t : Tree β α) (x : Nat × α) (member : x ∈ t.leaves) : leaf x.1 x.2 ∈ t.iter := by
  induction t using induct with
  | leaf r a => simp_all
  | node r b cs ih =>
    obtain ⟨c,inside,held⟩ := by simpa using member
    rw [iter_node]
    exact List.mem_cons_of_mem _ (List.mem_flatMap.mpr ⟨c,inside,ih c inside held⟩)

theorem iter_trans (t a b : Tree β α) (outer : a ∈ t.iter) (inner : b ∈ a.iter) : b ∈ t.iter := by
  induction t using induct with
  | leaf r a => simp_all
  | node r b' cs ih =>
    rw [iter_node,List.mem_cons,List.mem_flatMap] at outer
    obtain rfl | ⟨c,inside,outer⟩ := outer
    · exact inner
    · rw [iter_node]
      exact List.mem_cons_of_mem _ (List.mem_flatMap.mpr ⟨c,inside,ih c inside outer⟩)

mutual
/-- The elements around one, the nearest first. -/
def ancestors (r : Nat) : Tree β α → List (Tree β α)
  | leaf _ _ => []
  | node ref label children =>
    if ref = r then []
    else
      match ancestorsAll r children with
      | none => []
      | some chain => chain ++ [node ref label children]
def ancestorsAll (r : Nat) : List (Tree β α) → Option (List (Tree β α))
  | [] => none
  | child::rest => if r ∈ child.refs then some (ancestors r child) else ancestorsAll r rest
end

theorem ancestorsAll_some (r : Nat) (cs : List (Tree β α)) (chain : List (Tree β α))
    (found : ancestorsAll r cs = some chain) : ∃ c ∈ cs, r ∈ c.refs ∧ chain = ancestors r c := by
  induction cs with
  | nil => cases found
  | cons c rest ih =>
    rw [ancestorsAll] at found
    split at found
    · rename_i here
      injection found with found
      exact ⟨c,by simp,here,found.symm⟩
    · obtain ⟨d,member,rest⟩ := ih found
      exact ⟨d,by simp [member],rest⟩

theorem ancestorsAll_none (r : Nat) (cs : List (Tree β α)) :
    ancestorsAll r cs = none ↔ ∀ c ∈ cs, r ∉ c.refs := by
  induction cs with
  | nil => simp [ancestorsAll]
  | cons c rest ih =>
    rw [ancestorsAll]
    split <;> simp_all

/-- The elements around one are those that hold its reference and have another. -/
theorem mem_ancestors (t : Tree β α) (distinct : Distinct t) (r : Nat) (q : Tree β α) :
    q ∈ ancestors r t ↔ q ∈ t.iter ∧ r ∈ q.refs ∧ q.ref ≠ r := by
  induction t using induct with
  | leaf ref a =>
    simp only [ancestors,List.not_mem_nil,iter_leaf,List.mem_singleton,false_iff]
    rintro ⟨rfl,held,other⟩
    simp_all
  | node ref label children ih =>
    rw [ancestors,iter_node,List.mem_cons,List.mem_flatMap]
    split
    · rename_i here
      subst here
      refine iff_of_false (List.not_mem_nil) ?_
      rintro ⟨rfl | ⟨c,member,inside⟩,held,other⟩
      · exact other rfl
      · exact distinct.root c member (refs_of_iter c q inside _ held)
    rename_i elsewhere
    split
    · rename_i missing
      refine iff_of_false (List.not_mem_nil) ?_
      have absent := (ancestorsAll_none r children).mp missing
      rintro ⟨rfl | ⟨c,member,inside⟩,held,other⟩
      · obtain rfl | deep := by simpa using held
        · exact elsewhere rfl
        · obtain ⟨c,member,held⟩ := deep
          exact absent c member held
      · exact absent c member (refs_of_iter c q inside _ held)
    · rename_i chain found
      obtain ⟨c,member,here,rfl⟩ := ancestorsAll_some r children chain found
      rw [List.mem_append,ih c member (distinct.child c member),List.mem_singleton]
      constructor
      · rintro (⟨inside,held,other⟩ | rfl)
        · exact ⟨.inr ⟨c,member,inside⟩,held,other⟩
        · refine ⟨.inl rfl,?_,elsewhere⟩
          rw [refs_node]
          exact List.mem_cons_of_mem _ (List.mem_flatMap.mpr ⟨c,member,here⟩)
      · rintro ⟨rfl | ⟨d,other,inside⟩,held,different⟩
        · exact .inr rfl
        · obtain rfl := distinct.apart c d member other r here (refs_of_iter d q inside _ held)
          exact .inl ⟨inside,held,different⟩

theorem ancestors_iter (t : Tree β α) (r : Nat) (q : Tree β α) (member : q ∈ ancestors r t) : q ∈ t.iter := by
  induction t using induct with
  | leaf ref a => cases member
  | node ref label children ih =>
    rw [ancestors] at member
    split at member
    · cases member
    split at member
    · cases member
    · rename_i chain found
      obtain ⟨c,inside,here,rfl⟩ := ancestorsAll_some r children chain found
      rw [iter_node]
      obtain below | top := List.mem_append.mp member
      · exact List.mem_cons_of_mem _ (List.mem_flatMap.mpr ⟨c,inside,ih c inside below⟩)
      · exact List.mem_cons.mpr (.inl (List.mem_singleton.mp top))

/-- Each element around one lies in the next. -/
theorem ancestors_nested (t : Tree β α) (r : Nat) :
    (ancestors r t).Pairwise (fun inner outer => inner ∈ outer.iter) := by
  induction t using induct with
  | leaf ref a => simp [ancestors]
  | node ref label children ih =>
    rw [ancestors]
    split
    · exact .nil
    split
    · exact .nil
    · rename_i chain found
      obtain ⟨c,member,here,rfl⟩ := ancestorsAll_some r children chain found
      refine List.pairwise_append.mpr ⟨ih c member,List.pairwise_singleton _ _,?_⟩
      intro inner below outer top
      obtain rfl := List.mem_singleton.mp top
      rw [iter_node]
      exact List.mem_cons_of_mem _ (List.mem_flatMap.mpr ⟨c,member,ancestors_iter c r inner below⟩)

theorem refs_strip (p : Nat → Bool) (t : Tree β α) : (t.strip p).refs.Sublist t.refs := by
  induction t using induct with
  | leaf r a => exact .refl _
  | node r b cs ih =>
    rw [strip_node,refs_node,refs_node,List.flatMap_map]
    refine List.Sublist.cons_cons r ?_
    refine (List.Sublist.flatMap_right _ fun c member => ih c (List.mem_of_mem_filter member)).trans ?_
    exact List.Sublist.flatMap List.filter_sublist refs

theorem Distinct.strip (p : Nat → Bool) (t : Tree β α) (distinct : Distinct t) : Distinct (t.strip p) :=
  distinct.sublist (refs_strip p t)

/-- A leaf is known by its reference. -/
theorem leaf_unique (t : Tree β α) (distinct : Distinct t) (x y : Nat × α) (one : x ∈ t.leaves) (other : y ∈ t.leaves)
    (same : x.1 = y.1) : x = y := by
  have equal := iter_unique t distinct _ _ (leaves_iter t x one) (leaves_iter t y other) same
  simp only [leaf.injEq] at equal
  exact Prod.ext equal.1 equal.2

/-- An element that holds a leaf's reference holds the leaf. -/
theorem leaf_of_ref (t q : Tree β α) (distinct : Distinct t) (inside : q ∈ t.iter) (x : Nat × α) (member : x ∈ t.leaves)
    (held : x.1 ∈ q.refs) : x ∈ q.leaves := by
  obtain ⟨e,within,same⟩ := List.mem_map.mp held
  obtain rfl := iter_unique t distinct e (leaf x.1 x.2) (iter_trans t q e inside within) (leaves_iter t x member) same
  exact leaves_of_iter q _ within x (by simp)

theorem leaves_refs (t : Tree β α) : (t.leaves.map Prod.fst).Sublist t.refs := by
  induction t using induct with
  | leaf r a => exact .refl _
  | node r b cs ih =>
    rw [refs_node,leaves_node,List.map_flatMap]
    exact (List.Sublist.flatMap_right cs ih).cons r

theorem leaves_nodup (t : Tree β α) (distinct : Distinct t) : t.leaves.Nodup :=
  (distinct.sublist (leaves_refs t)).of_map _

/-- A leaf lies in one child. -/
theorem child_unique (r : Nat) (b : β) (cs : List (Tree β α)) (distinct : Distinct (node r b cs)) (c d : Tree β α)
    (left : c ∈ cs) (right : d ∈ cs) (x : Nat × α) (one : x ∈ c.leaves) (other : x ∈ d.leaves) : c = d :=
  distinct.apart c d left right x.1 (leaf_mem_refs c x one) (leaf_mem_refs d x other)

/-- A leaf stands at one place of the document. -/
theorem leaf_place (t : Tree β α) (distinct : Distinct t) (before before' after after' : List (Nat × α)) (x : Nat × α)
    (here : t.leaves = before ++ x :: after) (there : t.leaves = before' ++ x :: after') : before = before' := by
  have apart := leaves_nodup t distinct
  rw [here] at apart
  exact (flatMap_place (fun y => [y]) before before' after after' x x x (by simpa using apart) (here.symm.trans there)
    (by simp) (by simp)).1

theorem mem_iter (t : Tree β α) (s : Tree β α) : s ∈ t.iter ↔ s = t ∨ s ∈ t.beneath := by
  cases t <;> simp [beneath,children]

theorem beneath_ne (t s : Tree β α) (distinct : Distinct t) (below : s ∈ t.beneath) : s ≠ t := by
  rintro rfl
  cases s with
  | leaf r a => cases below
  | node r b cs =>
    obtain ⟨c,member,inside⟩ := List.mem_flatMap.mp below
    exact distinct.root c member (refs_of_iter c _ inside _ (ref_mem_refs _))

end Tree
end Lib
