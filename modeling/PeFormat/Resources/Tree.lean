import Mathlib.Data.List.Basic

/-!
`getResourceNodes`: the resource tree of a PE file flattened level by level. The children of
the root are the first level; the loop then walks `nodes` from the front, appending the
children of each node, and closes a level when it reaches the last node of the current one.
So `nodes` is the breadth-first order of the tree without its root, and `levels` the sizes of
the levels.
-/
namespace PeFormat

/-- Modelled from the spec: PeLib's `ResourceChild` is not in the sources. A child has a name
(empty when it is given by an id), the name offset or id, and a node: a directory of
children, each possibly null, or a leaf with the address and size of its data. -/
inductive ResourceChild
  | dir (name : String) (offsetToName : Nat) (children : List (Option ResourceChild))
  | leaf (name : String) (offsetToName : Nat) (offsetToData size : Nat)

namespace ResourceChild

def getName : ResourceChild → String
  | dir name .. => name
  | leaf name .. => name

def getOffsetToName : ResourceChild → Nat
  | dir _ offsetToName _ => offsetToName
  | leaf _ offsetToName .. => offsetToName

/-- The children `getChildOfThisChild` returns; a leaf has none. -/
def children : ResourceChild → List (Option ResourceChild)
  | dir _ _ children => children
  | leaf .. => []

def getNumberOfChildren (c : ResourceChild) : Nat := c.children.length

end ResourceChild

def childrenOf (c : Option ResourceChild) : List (Option ResourceChild) :=
  (c.map ResourceChild.children).getD []

@[simp] theorem childrenOf_none : childrenOf none = [] := rfl

@[simp] theorem childrenOf_some (c : ResourceChild) : childrenOf (some c) = c.children := rfl

def nextLevel (level : List (Option ResourceChild)) : List (Option ResourceChild) :=
  level.flatMap childrenOf

mutual
def ResourceChild.entryCount : ResourceChild → Nat
  | .dir _ _ children => entriesCount children
  | .leaf .. => 0
def entriesCount : List (Option ResourceChild) → Nat
  | [] => 0
  | c :: cs => 1 + optionEntryCount c + entriesCount cs
def optionEntryCount : Option ResourceChild → Nat
  | none => 0
  | some c => c.entryCount
end

/-- The loop of `getResourceNodes` at index `i`, the current level ending at `e`, with `fuel`
turns of its body left; `none` when they run out. -/
def resourceNodesLoop : Nat → Nat → Nat → List (Option ResourceChild) → List Nat →
    Option (List (Option ResourceChild) × List Nat)
  | 0, i, e, nodes, levels => if i < e then none else some (nodes, levels)
  | fuel + 1, i, e, nodes, levels =>
    if i < e then
      let nodes := nodes ++ childrenOf (nodes.getD i none)
      -- end of the current level
      if i + 1 = e ∧ nodes.length > e then
        resourceNodesLoop fuel (i + 1) nodes.length nodes (levels ++ [nodes.length - e])
      else resourceNodesLoop fuel (i + 1) e nodes levels
    else some (nodes, levels)

/-- `getResourceNodes` on the children of the root: `none` for `false`, when there is no root
or it has no children. The loop turns once per entry of the tree. -/
def getResourceNodes (root : Option (List (Option ResourceChild))) :
    Option (List (Option ResourceChild) × List Nat) :=
  match root with
  | none => none
  | some rootChildren =>
    if rootChildren.length = 0 then none
    else resourceNodesLoop (entriesCount rootChildren) 0 rootChildren.length rootChildren
      [rootChildren.length]

inductive BfsLevels : List (Option ResourceChild) → List (List (Option ResourceChild)) → Prop
  | last {lvl : List (Option ResourceChild)} : lvl ≠ [] → nextLevel lvl = [] → BfsLevels lvl [lvl]
  | next {lvl : List (Option ResourceChild)} {rest : List (List (Option ResourceChild))} :
      lvl ≠ [] → BfsLevels (nextLevel lvl) rest → BfsLevels lvl (lvl :: rest)

/-! ## Levels -/

@[simp] theorem nextLevel_nil : nextLevel [] = [] := rfl

@[simp] theorem nextLevel_append (xs ys : List (Option ResourceChild)) :
    nextLevel (xs ++ ys) = nextLevel xs ++ nextLevel ys :=
  List.flatMap_append _ _ _

theorem nextLevel_take_succ {xs : List (Option ResourceChild)} {i : Nat} (h : i < xs.length) :
    nextLevel (xs.take (i + 1)) = nextLevel (xs.take i) ++ childrenOf xs[i] := by
  rw [List.take_succ, List.getElem?_eq_getElem h, Option.toList_some, nextLevel_append]
  simp only [nextLevel, List.flatMap_cons, List.flatMap_nil, List.append_nil]

theorem getElem?_nextLevel {xs : List (Option ResourceChild)} {i j : Nat} (h : i < xs.length)
    (hj : j < (childrenOf xs[i]).length) :
    (nextLevel xs)[(nextLevel (xs.take i)).length + j]? = (childrenOf xs[i])[j]? := by
  have split : nextLevel xs =
      nextLevel (xs.take i) ++ (childrenOf xs[i] ++ nextLevel (xs.drop (i + 1))) := by
    rw [← List.append_assoc, ← nextLevel_take_succ h, ← nextLevel_append, List.take_append_drop]
  rw [split, List.getElem?_append_right (by omega), Nat.add_sub_cancel_left,
    List.getElem?_append_left hj]

theorem getD_level {pre lvl tail : List (Option ResourceChild)} {k : Nat} (h : k < lvl.length) :
    (pre ++ lvl ++ tail).getD (pre.length + k) none = lvl[k] := by
  rw [List.getD_eq_getElem?_getD, List.append_assoc, List.getElem?_append_right (by omega),
    Nat.add_sub_cancel_left, List.getElem?_append_left h, List.getElem?_eq_getElem h]
  rfl

theorem entriesCount_append (xs ys : List (Option ResourceChild)) :
    entriesCount (xs ++ ys) = entriesCount xs + entriesCount ys := by
  induction xs with
  | nil => simp [entriesCount]
  | cons c cs ih => rw [List.cons_append, entriesCount, entriesCount, ih]; omega

theorem optionEntryCount_eq (c : Option ResourceChild) :
    optionEntryCount c = entriesCount (childrenOf c) := by
  rcases c with _ | _ | _ <;> rfl

theorem entriesCount_eq (lvl : List (Option ResourceChild)) :
    entriesCount lvl = lvl.length + entriesCount (nextLevel lvl) := by
  induction lvl with
  | nil => rfl
  | cons c cs ih =>
    have hcons : nextLevel (c :: cs) = childrenOf c ++ nextLevel cs := List.flatMap_cons _ _ _
    rw [entriesCount, optionEntryCount_eq, ih, hcons, entriesCount_append, List.length_cons]
    omega

theorem BfsLevels.eq_cons {lvl : List (Option ResourceChild)}
    {ls : List (List (Option ResourceChild))} (h : BfsLevels lvl ls) : ls = lvl :: ls.tail := by
  cases h <;> rfl

theorem BfsLevels.ne_nil {lvl : List (Option ResourceChild)}
    {ls : List (List (Option ResourceChild))} (h : BfsLevels lvl ls) : lvl ≠ [] := by
  cases h <;> assumption

theorem BfsLevels.entriesCount_eq {lvl : List (Option ResourceChild)}
    {ls : List (List (Option ResourceChild))} (h : BfsLevels lvl ls) :
    entriesCount lvl = ls.flatten.length := by
  induction h with
  | last _ hnil => rw [PeFormat.entriesCount_eq, hnil]; simp [entriesCount]
  | next _ _ ih => rw [PeFormat.entriesCount_eq, ih]; simp

/-! ## The loop -/

theorem resourceNodesLoop_done {fuel i e : Nat} {nodes : List (Option ResourceChild)}
    {levels : List Nat} (h : e ≤ i) :
    resourceNodesLoop fuel i e nodes levels = some (nodes, levels) := by
  cases fuel <;> simp [resourceNodesLoop, Nat.not_lt.2 h]

theorem resourceNodesLoop_level (pre lvl : List (Option ResourceChild)) (levels : List Nat)
    (fuel : Nat) : ∀ r k, k + r + 1 = lvl.length →
    resourceNodesLoop (fuel + r + 1) (pre.length + k) (pre.length + lvl.length)
        (pre ++ lvl ++ nextLevel (lvl.take k)) levels =
      if (nextLevel lvl).length = 0 then some (pre ++ lvl ++ nextLevel lvl, levels)
      else resourceNodesLoop fuel (pre.length + lvl.length)
        (pre.length + lvl.length + (nextLevel lvl).length) (pre ++ lvl ++ nextLevel lvl)
        (levels ++ [(nextLevel lvl).length]) := by
  intro r
  induction r with
  | zero =>
    intro k hk
    have hkl : k < lvl.length := by omega
    have hall : lvl.take (k + 1) = lvl := List.take_of_length_le (by omega)
    rw [resourceNodesLoop]
    dsimp only
    rw [if_pos (by omega), getD_level hkl, List.append_assoc, ← nextLevel_take_succ hkl, hall]
    simp only [List.length_append, Nat.add_zero]
    by_cases hn : (nextLevel lvl).length = 0
    · rw [if_neg (by omega), if_pos hn, resourceNodesLoop_done (by omega)]
    · rw [if_pos ⟨by omega, by omega⟩, if_neg hn, Nat.add_sub_cancel_left]
      congr 1
      omega
  | succ r ih =>
    intro k hk
    have hkl : k < lvl.length := by omega
    rw [resourceNodesLoop]
    dsimp only
    rw [if_pos (by omega), getD_level hkl, List.append_assoc, ← nextLevel_take_succ hkl,
      if_neg (by omega)]
    exact ih (k + 1) (by omega)

theorem BfsLevels.loop {lvl : List (Option ResourceChild)}
    {ls : List (List (Option ResourceChild))} (h : BfsLevels lvl ls) :
    ∀ (pre : List (Option ResourceChild)) (levels : List Nat) (fuel : Nat),
      ls.flatten.length ≤ fuel →
      resourceNodesLoop fuel pre.length (pre.length + lvl.length) (pre ++ lvl) levels =
        some (pre ++ ls.flatten, levels ++ ls.tail.map List.length) := by
  induction h with
  | @last lvl hne hnil =>
    intro pre levels fuel hfuel
    have hlen : 0 < lvl.length := List.length_pos.2 hne
    obtain ⟨fuel, rfl⟩ : ∃ f, fuel = f + (lvl.length - 1) + 1 :=
      ⟨fuel - lvl.length, by simp at hfuel; omega⟩
    have := resourceNodesLoop_level pre lvl levels fuel (lvl.length - 1) 0 (by omega)
    simp only [List.take_zero, nextLevel_nil, List.append_nil, Nat.add_zero, hnil,
      List.length_nil, if_true] at this
    simpa using this
  | @next lvl rest hne hrest ih =>
    intro pre levels fuel hfuel
    have hlen : 0 < lvl.length := List.length_pos.2 hne
    have hnext : (nextLevel lvl).length ≠ 0 := fun h0 => hrest.ne_nil (List.length_eq_zero.1 h0)
    simp only [List.flatten_cons, List.length_append] at hfuel
    obtain ⟨fuel, rfl⟩ : ∃ f, fuel = f + (lvl.length - 1) + 1 :=
      ⟨fuel - lvl.length, by omega⟩
    have := resourceNodesLoop_level pre lvl levels fuel (lvl.length - 1) 0 (by omega)
    simp only [List.take_zero, nextLevel_nil, List.append_nil, Nat.add_zero, if_neg hnext]
      at this
    rw [this, ← List.length_append, ih (pre ++ lvl) _ fuel (by omega), hrest.eq_cons]
    simp

theorem getResourceNodes_bfs {root : List (Option ResourceChild)}
    {ls : List (List (Option ResourceChild))} (h : BfsLevels root ls) :
    getResourceNodes (some root) = some (ls.flatten, ls.map List.length) := by
  have hlen : root.length ≠ 0 := fun h0 => h.ne_nil (List.length_eq_zero.1 h0)
  have := h.loop [] [root.length] (entriesCount root) h.entriesCount_eq.ge
  simp only [List.length_nil, Nat.zero_add, List.nil_append] at this
  rw [getResourceNodes, if_neg hlen, this]
  obtain ⟨tail, rfl⟩ : ∃ t, ls = root :: t := ⟨_, h.eq_cons⟩
  rfl

theorem exists_bfsLevels :
    ∀ (n : Nat) (lvl : List (Option ResourceChild)), entriesCount lvl ≤ n → lvl ≠ [] →
      ∃ ls, BfsLevels lvl ls
  | 0, lvl, hn, hne => by
    have := entriesCount_eq lvl
    have := List.length_pos.2 hne
    omega
  | n + 1, lvl, hn, hne => by
    by_cases hnext : nextLevel lvl = []
    · exact ⟨[lvl], .last hne hnext⟩
    · have hcount := entriesCount_eq lvl
      have := List.length_pos.2 hne
      obtain ⟨ls, h⟩ := exists_bfsLevels n (nextLevel lvl) (by omega) hnext
      exact ⟨lvl :: ls, .next hne h⟩

theorem getResourceNodes_total {root : List (Option ResourceChild)} (hne : root ≠ []) :
    ∃ ls, BfsLevels root ls ∧ getResourceNodes (some root) = some (ls.flatten, ls.map List.length) :=
  let ⟨ls, h⟩ := exists_bfsLevels _ root le_rfl hne
  ⟨ls, h, getResourceNodes_bfs h⟩

def sampleResourceRoot : List (Option ResourceChild) :=
  [some (.dir "" 3 [some (.dir "" 1 [some (.leaf "" 1033 0x2000 16)])]), none]

theorem getResourceNodes_sampleResourceRoot :
    ∃ ls, BfsLevels sampleResourceRoot ls ∧
      getResourceNodes (some sampleResourceRoot) = some (ls.flatten, ls.map List.length) :=
  getResourceNodes_total (List.cons_ne_nil _ _)

end PeFormat
