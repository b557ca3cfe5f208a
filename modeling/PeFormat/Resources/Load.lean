import PeFormat.Resources.Tree

/-!
`loadResources` on a resource tree of three levels below the root: types, names and
languages. The children of a node are found in `nodes` by index arithmetic: `nSft` and `lSft`
count the children of the non-null nodes seen so far on the level above, so the children of
the current node end there. Every index stays inside `nodes` and reads the child the loops
mean, so a resource is made for each type, name and language path that ends in a leaf.
-/
namespace PeFormat

/-- What `loadResources` reads besides the tree: the image base, `getOffsetFromAddress`, and
the tables `resourceTypeMap` and `resourceLanguageMap` as `mapGetValueOrDefault` reads them
(their keys are PeLib constants, which are not in the sources). -/
structure ResourceContext where
  imageBase : Nat
  offsetFromAddress : Nat → Option Nat
  resourceTypeName : Nat → String
  resourceLanguageName : Nat → String

/-- The fields `loadResources` sets on a `Resource`. -/
structure Resource where
  type : String
  typeId : Option Nat
  name : String
  nameId : Option Nat
  offset : Option Nat
  sizeInFile : Nat
  language : String
  languageId : Option Nat
  sublanguageId : Option Nat
  deriving DecidableEq, Repr

/-- The resource of a language leaf (name, name offset or id, data address and size) of
`nameChild` of `typeChild`. An empty name stands for an id. -/
def makeResource (ctx : ResourceContext) (typeChild nameChild : ResourceChild) (lanName : String)
    (lIdAll offsetToData size : Nat) : Resource :=
  let emptyType := typeChild.getName.isEmpty
  let lId := lIdAll &&& 0x3FF
  { type := if emptyType then ctx.resourceTypeName typeChild.getOffsetToName else typeChild.getName
    typeId := if emptyType then some typeChild.getOffsetToName else none
    name := nameChild.getName
    nameId := if nameChild.getName.isEmpty then some nameChild.getOffsetToName else none
    offset := ctx.offsetFromAddress (ctx.imageBase + offsetToData)
    sizeInFile := size
    language := if lanName.isEmpty then ctx.resourceLanguageName lId else lanName
    languageId := if lanName.isEmpty then some lId else none
    sublanguageId := if lanName.isEmpty then some ((lIdAll &&& 0xFC00) >>> 10) else none }

def leafResource (ctx : ResourceContext) (typeChild nameChild : ResourceChild) :
    Option ResourceChild → Option Resource
  | some (.leaf lanName lIdAll offsetToData size) =>
    some (makeResource ctx typeChild nameChild lanName lIdAll offsetToData size)
  | _ => none

section Loops

variable (ctx : ResourceContext) (nodes : List (Option ResourceChild)) (e level1 : Nat)

/-- The language loop of `nameChild`, whose `g` children end at `lSft` on the third level, from
`k` with `n` turns left; `none` is a read past the end of `nodes`. -/
def loadLanguages (typeChild nameChild : ResourceChild) (lSft g : Nat) :
    Nat → Nat → Option (List Resource)
  | _, 0 => some []
  | k, n + 1 =>
    match nodes[e + level1 + k + lSft - g]?,
        loadLanguages typeChild nameChild lSft g (k + 1) n with
    | some lanChild, some rest => some ((leafResource ctx typeChild nameChild lanChild).toList ++ rest)
    | _, _ => none

/-- The name loop of `typeChild`, whose `f` children end at `nSft` on the second level, from `j`
with `n` turns left: `lSft` after it, and the resources. -/
def loadNames (typeChild : ResourceChild) (nSft f : Nat) :
    Nat → Nat → Nat → Option (Nat × List Resource)
  | _, 0, lSft => some (lSft, [])
  | j, n + 1, lSft =>
    match nodes[e + j + nSft - f]? with
    | none => none
    | some none => loadNames typeChild nSft f (j + 1) n lSft
    | some (some nameChild) =>
      let g := nameChild.getNumberOfChildren
      match loadLanguages ctx nodes e level1 typeChild nameChild (lSft + g) g 0 g,
          loadNames typeChild nSft f (j + 1) n (lSft + g) with
      | some rs, some (lSft, rest) => some (lSft, rs ++ rest)
      | _, _ => none

/-- The type loop from `i` with `n` turns left. -/
def loadTypes : Nat → Nat → Nat → Nat → Option (List Resource)
  | _, 0, _, _ => some []
  | i, n + 1, nSft, lSft =>
    match nodes[i]? with
    | none => none
    | some none => loadTypes (i + 1) n nSft lSft
    | some (some typeChild) =>
      let f := typeChild.getNumberOfChildren
      match loadNames ctx nodes e level1 typeChild (nSft + f) f 0 f lSft with
      | some (lSft, rs) => (loadTypes (i + 1) n (nSft + f) lSft).map (rs ++ ·)
      | none => none

end Loops

/-- What `loadResources` does with a resource tree. -/
inductive ResourceLoad
  /-- `getResourceNodes` fails: no resource table. -/
  | noTree
  /-- Not three levels below the root: `loadResourceNodes`, not modelled here. -/
  | otherLevels
  | table (resources : List Resource)
  /-- A read past the end of `nodes`. -/
  | undefined

/-- `loadResources` from `getResourceNodes` on. Modelled from the spec: `ResourceTree` is not
in the sources; `getNumberOfLevelsWithoutRoot` is the number of levels `getResourceNodes`
records, null nodes included, where `ResourceTree` counts only the depths that hold a
non-null node. -/
def loadResources (ctx : ResourceContext) (root : Option (List (Option ResourceChild))) :
    ResourceLoad :=
  match getResourceNodes root with
  | none => .noTree
  | some (nodes, levels) =>
    if levels.length ≠ 3 then .otherLevels
    else
      match loadTypes ctx nodes (levels.getD 0 0) (levels.getD 1 0) 0 (levels.getD 0 0) 0 0 with
      | some resources => .table resources
      | none => .undefined

/-! ## The resources of the paths -/

def languageResources (ctx : ResourceContext) (typeChild nameChild : ResourceChild)
    (langs : List (Option ResourceChild)) : List Resource :=
  langs.flatMap fun
    | some (.leaf lanName lIdAll offsetToData size) =>
      [makeResource ctx typeChild nameChild lanName lIdAll offsetToData size]
    | _ => []

def nameResources (ctx : ResourceContext) (typeChild : ResourceChild)
    (names : List (Option ResourceChild)) : List Resource :=
  names.flatMap fun
    | some nameChild => languageResources ctx typeChild nameChild nameChild.children
    | none => []

def resourcePaths (ctx : ResourceContext) (types : List (Option ResourceChild)) : List Resource :=
  types.flatMap fun
    | some typeChild => nameResources ctx typeChild typeChild.children
    | none => []

def levelNodes (L1 : List (Option ResourceChild)) : List (Option ResourceChild) :=
  L1 ++ nextLevel L1 ++ nextLevel (nextLevel L1)

/-! ## The loops read the children they mean -/

theorem languageResources_cons {ctx : ResourceContext} {typeChild nameChild : ResourceChild}
    (c : Option ResourceChild) (cs : List (Option ResourceChild)) :
    languageResources ctx typeChild nameChild (c :: cs) =
      (leafResource ctx typeChild nameChild c).toList ++ languageResources ctx typeChild nameChild cs := by
  rcases c with _ | _ | _ <;> rfl

section Paths

variable {ctx : ResourceContext} {L1 : List (Option ResourceChild)}

theorem levelNodes_first {i : Nat} (h : i < L1.length) : (levelNodes L1)[i]? = L1[i]? := by
  rw [levelNodes, List.append_assoc, List.getElem?_append_left h]

theorem levelNodes_second {x : Nat} (h : x < (nextLevel L1).length) :
    (levelNodes L1)[L1.length + x]? = (nextLevel L1)[x]? := by
  rw [levelNodes, List.append_assoc, List.getElem?_append_right (by omega),
    Nat.add_sub_cancel_left, List.getElem?_append_left h]

theorem levelNodes_third (y : Nat) :
    (levelNodes L1)[L1.length + (nextLevel L1).length + y]? = (nextLevel (nextLevel L1))[y]? := by
  rw [levelNodes, List.getElem?_append_right (by simp), List.length_append,
    Nat.add_sub_cancel_left]

theorem getElem?_nextLevel_of_some {xs : List (Option ResourceChild)} {i j : Nat}
    {c : ResourceChild} (hc : xs[i]? = some (some c)) (hj : j < c.children.length) :
    (nextLevel xs)[(nextLevel (xs.take i)).length + j]? = some c.children[j] := by
  obtain ⟨hi, hci⟩ := List.getElem?_eq_some_iff.1 hc
  have hj' : j < (childrenOf xs[i]).length := by simpa [hci] using hj
  rw [getElem?_nextLevel hi hj']
  simp [hci, hj]

theorem nextLevel_take_succ_of {xs : List (Option ResourceChild)} {i : Nat}
    {c : Option ResourceChild} (hc : xs[i]? = some c) :
    nextLevel (xs.take (i + 1)) = nextLevel (xs.take i) ++ childrenOf c := by
  obtain ⟨hi, hci⟩ := List.getElem?_eq_some_iff.1 hc
  rw [nextLevel_take_succ hi, hci]

theorem take_nextLevel (i : Nat) :
    (nextLevel L1).take (nextLevel (L1.take i)).length = nextLevel (L1.take i) := by
  have split : nextLevel L1 = nextLevel (L1.take i) ++ nextLevel (L1.drop i) := by
    rw [← nextLevel_append, List.take_append_drop]
  rw [split, List.take_left' rfl]

theorem loadLanguages_children {q : Nat} {typeChild nameChild : ResourceChild}
    (hq : (nextLevel L1)[q]? = some (some nameChild)) :
    ∀ n k, k + n = nameChild.children.length →
      loadLanguages ctx (levelNodes L1) L1.length (nextLevel L1).length typeChild nameChild
          ((nextLevel ((nextLevel L1).take q)).length + nameChild.children.length)
          nameChild.children.length k n =
        some (languageResources ctx typeChild nameChild (nameChild.children.drop k)) := by
  intro n
  induction n with
  | zero =>
    intro k hk
    simp [loadLanguages, languageResources, List.drop_eq_nil_of_le (by omega : nameChild.children.length ≤ k)]
  | succ n ih =>
    intro k hk
    have hk' : k < nameChild.children.length := by omega
    have idx : (levelNodes L1)[L1.length + (nextLevel L1).length + k +
          ((nextLevel ((nextLevel L1).take q)).length + nameChild.children.length) -
          nameChild.children.length]? = some nameChild.children[k] := by
      rw [show ∀ a b c d g : Nat, a + b + c + (d + g) - g = a + b + (d + c) by intros; omega,
        levelNodes_third, getElem?_nextLevel_of_some hq hk']
    rw [loadLanguages, idx, ih (k + 1) (by omega), List.drop_eq_getElem_cons hk',
      languageResources_cons]

theorem loadNames_children {p : Nat} {typeChild : ResourceChild}
    (hp : L1[p]? = some (some typeChild)) :
    ∀ n j lSft, j + n = typeChild.children.length →
      lSft = (nextLevel ((nextLevel L1).take ((nextLevel (L1.take p)).length + j))).length →
      loadNames ctx (levelNodes L1) L1.length (nextLevel L1).length typeChild
          ((nextLevel (L1.take p)).length + typeChild.children.length)
          typeChild.children.length j n lSft =
        some ((nextLevel ((nextLevel L1).take
            ((nextLevel (L1.take p)).length + typeChild.children.length))).length,
          nameResources ctx typeChild (typeChild.children.drop j)) := by
  intro n
  induction n with
  | zero =>
    intro j lSft hj hl
    subst hl
    simp [loadNames, nameResources, List.drop_eq_nil_of_le (by omega : typeChild.children.length ≤ j), ← hj]
  | succ n ih =>
    intro j lSft hj hl
    have hj' : j < typeChild.children.length := by omega
    have hname := getElem?_nextLevel_of_some hp hj'
    have idx : (levelNodes L1)[L1.length + j +
          ((nextLevel (L1.take p)).length + typeChild.children.length) -
          typeChild.children.length]? = some typeChild.children[j] := by
      rw [show ∀ a c d f : Nat, a + c + (d + f) - f = a + (d + c) by intros; omega,
        levelNodes_second (List.getElem?_eq_some_iff.1 hname).1, hname]
    have hnext := nextLevel_take_succ_of hname
    rw [loadNames, idx, List.drop_eq_getElem_cons hj']
    cases hc : typeChild.children[j] with
    | none =>
      rw [hc, childrenOf_none, List.append_nil] at hnext
      rw [ih (j + 1) lSft (by omega) (by rw [← Nat.add_assoc, hnext, hl])]
      simp [nameResources]
    | some nameChild =>
      rw [hc] at hname
      rw [hc, childrenOf_some] at hnext
      dsimp only [ResourceChild.getNumberOfChildren]
      rw [hl, loadLanguages_children hname _ 0 (by omega),
        ih (j + 1) _ (by omega) (by rw [← Nat.add_assoc, hnext, List.length_append])]
      simp [nameResources]

theorem loadTypes_paths :
    ∀ n i, i + n = L1.length →
      loadTypes ctx (levelNodes L1) L1.length (nextLevel L1).length i n
          (nextLevel (L1.take i)).length (nextLevel (nextLevel (L1.take i))).length =
        some (resourcePaths ctx (L1.drop i)) := by
  intro n
  induction n with
  | zero =>
    intro i hi
    simp [loadTypes, resourcePaths, List.drop_eq_nil_of_le (by omega : L1.length ≤ i)]
  | succ n ih =>
    intro i hi
    have hi' : i < L1.length := by omega
    have htype : L1[i]? = some L1[i] := List.getElem?_eq_getElem hi'
    have hnext := nextLevel_take_succ_of htype
    rw [loadTypes, levelNodes_first hi', htype, List.drop_eq_getElem_cons hi']
    cases hc : L1[i] with
    | none =>
      rw [hc, childrenOf_none, List.append_nil] at hnext
      rw [← hnext, ih (i + 1) (by omega)]
      simp [resourcePaths]
    | some typeChild =>
      rw [hc] at htype
      rw [hc, childrenOf_some] at hnext
      have hsecond : nextLevel (nextLevel (L1.take (i + 1))) =
          nextLevel ((nextLevel L1).take
            ((nextLevel (L1.take i)).length + typeChild.children.length)) := by
        rw [← take_nextLevel (i + 1), hnext, List.length_append]
      have rest := ih (i + 1) (by omega)
      rw [hsecond, hnext, List.length_append] at rest
      dsimp only [ResourceChild.getNumberOfChildren]
      rw [loadNames_children htype _ 0 _ (by omega) (by rw [Nat.add_zero, take_nextLevel])]
      simp [rest, resourcePaths]

end Paths

theorem BfsLevels.three {root L2 L3 : List (Option ResourceChild)}
    (h : BfsLevels root [root, L2, L3]) : L2 = nextLevel root ∧ L3 = nextLevel L2 := by
  rcases h with _ | ⟨_, h2⟩
  rcases h2 with _ | ⟨_, h3⟩
  refine ⟨rfl, ?_⟩
  rcases h3 with _ | ⟨_, h4⟩
  · rfl
  · cases h4

theorem loadResources_paths (ctx : ResourceContext) {root L2 L3 : List (Option ResourceChild)}
    (h : BfsLevels root [root, L2, L3]) :
    getResourceNodes (some root) =
        some (root ++ L2 ++ L3, [root.length, L2.length, L3.length]) ∧
      loadResources ctx (some root) = .table (resourcePaths ctx root) := by
  have nodes : getResourceNodes (some root) =
      some (root ++ L2 ++ L3, [root.length, L2.length, L3.length]) := by
    rw [getResourceNodes_bfs h]
    simp
  refine ⟨nodes, ?_⟩
  obtain ⟨rfl, rfl⟩ := h.three
  have loop := @loadTypes_paths ctx root root.length 0 (Nat.zero_add _)
  simp only [List.take_zero, nextLevel_nil, List.length_nil, List.drop_zero] at loop
  rw [loadResources, nodes]
  simp only [List.length_cons, List.length_nil, ne_eq, not_true_eq_false, if_false,
    List.getD_cons_zero, List.getD_cons_succ]
  rw [show root ++ nextLevel root ++ nextLevel (nextLevel root) = levelNodes root from rfl, loop]

def sampleResourceContext : ResourceContext :=
  ⟨0x400000, fun a => some (a - 0x400000), fun t => if t = 3 then "Icon" else "",
    fun l => if l = 9 then "English" else ""⟩

theorem loadResources_sampleResourceRoot :
    getResourceNodes (some sampleResourceRoot) =
        some (sampleResourceRoot ++ [some (.dir "" 1 [some (.leaf "" 1033 0x2000 16)])] ++
          [some (.leaf "" 1033 0x2000 16)], [2, 1, 1]) ∧
      loadResources sampleResourceContext (some sampleResourceRoot) =
        .table [⟨"Icon", some 3, "", some 1, some 0x2000, 16, "English", some 9, some 1⟩] := by
  have levels : BfsLevels sampleResourceRoot [sampleResourceRoot,
      [some (.dir "" 1 [some (.leaf "" 1033 0x2000 16)])], [some (.leaf "" 1033 0x2000 16)]] :=
    .next (List.cons_ne_nil _ _) (.next (List.cons_ne_nil _ _) (.last (List.cons_ne_nil _ _) rfl))
  obtain ⟨nodes, load⟩ := loadResources_paths sampleResourceContext levels
  exact ⟨nodes, load.trans rfl⟩

end PeFormat
