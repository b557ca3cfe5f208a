import PeFormat.Dotnet.TypeLib
import PeFormat.Dotnet.MetadataTables

/-!
`computeTypeRefHashes`: the input of the TypeRef hashes of a .NET file. For each TypeRef
row whose resolution scope decodes, the loop adds the row's full name to the bytes, after
a `,` unless the bytes are still empty. A full name is the row's type name, namespace and
the name of its scope with a suffix for the scope's table, each when it is read and not
empty, joined by `.`. The strings `typeName`, `nameSpace` and `referencedName` are declared
before the loop and live across the rows. The digests (`retdec::crypto`) and
`StringStream::getString` are not in the sources: the model returns the bytes the three
digests are computed from, and the string heap is a parameter that writes its output only
when it finds the string. The loop is proved to compute, from any carried strings, the
comma-join of the rows' full names: nothing read for one row reaches another row's name.
-/
namespace PeFormat

/-- A `TypeRef` row with its `typeNamespace` column, which only the hash reads. -/
structure TypeRefRow extends TypeRef where
  typeNamespace : Nat
  deriving DecidableEq, Repr

structure DotnetModule where
  name : Nat
  deriving DecidableEq, Repr

structure ModuleRef where
  name : Nat
  deriving DecidableEq, Repr

/-- What `computeTypeRefHashes` reads: the string heap and four tables, each possibly
absent. A file without a metadata stream has none of the tables. -/
structure TypeRefHashSources where
  getString : Option (Nat → Option Bytes)
  typeRefTable : Option (List TypeRefRow)
  moduleTable : Option (List DotnetModule)
  moduleRefTable : Option (List ModuleRef)
  assemblyRefTable : Option (List AssemblyRef)

/-- `ResolutionScope::getTable`, not in the sources: the table its tag names
(ECMA-335 II.24.2.6), and failure for any other tag. -/
def resolutionScopeTable (scope : CodedIndex) : Option MetadataTableType :=
  match scope.tag with
  | 0 => some .Module
  | 1 => some .ModuleRef
  | 2 => some .AssemblyRef
  | 3 => some .TypeRef
  | _ => none

/-- `stringStream->getString(index, out) && !out.empty()`: the new `out` and the test. -/
def readName (getString : Nat → Option Bytes) (index : Nat) (out : Bytes) : Bytes × Bool :=
  match getString index with
  | some s => (s, !s.isEmpty)
  | none => (out, false)

/-- A case of the switch: `row && getString(row->name, referencedName) &&
!referencedName.empty()`, and then the table's suffix. `nameIndex` is the name column of
the scope's row, `none` when the table or the row is missing. -/
def readReferencedName (getString : Nat → Option Bytes) (nameIndex : Option Nat)
    (suffix referencedName : Bytes) : Bytes × Bool :=
  match nameIndex with
  | none => (referencedName, false)
  | some index =>
    match readName getString index referencedName with
    | (name, true) => (name ++ suffix, true)
    | (name, false) => (name, false)

/-- The values the cases of the switch read: the name column of row `index` of the
scope's table and the suffix. Only the TypeRef case reads its table without checking that
it is there, as it is the table the loop runs over; it reads the `typeName` column. -/
def scopeName (src : TypeRefHashSources) (typeRefs : List TypeRefRow)
    (scopeType : MetadataTableType) (index : Nat) : Option Nat × Bytes :=
  match scopeType with
  | .TypeRef => ((getRow typeRefs index).map (·.typeName), ascii "TR")
  | .Module => (src.moduleTable.bind fun rows => (getRow rows index).map (·.name), ascii "M")
  | .ModuleRef =>
    (src.moduleRefTable.bind fun rows => (getRow rows index).map (·.name), ascii "MR")
  | .AssemblyRef =>
    (src.assemblyRefTable.bind fun rows => (getRow rows index).map (·.name), ascii "AR")
  | _ => (none, [])

/-- `if (!s.empty()) s += sep; s += part`: how a part is added to `fullName`, and a full
name to the hash input. -/
def appendJoined (sep s part : Bytes) : Bytes :=
  (if s.isEmpty then s else s ++ sep) ++ part

/-- The `fullName` of a row from the three strings and their `valid` flags. -/
def fullName (typeName nameSpace referencedName : Bytes × Bool) : Bytes :=
  let fullName := if typeName.2 then typeName.1 else []
  let fullName := if nameSpace.2 then appendJoined (ascii ".") fullName nameSpace.1 else fullName
  if referencedName.2 then appendJoined (ascii ".") fullName referencedName.1 else fullName

/-- The variables of `computeTypeRefHashes` that live across the rows. -/
structure TypeRefHashState where
  typeRefHashBytes : Bytes
  typeName : Bytes
  nameSpace : Bytes
  referencedName : Bytes
  deriving DecidableEq, Repr

/-- One row of the loop. A row whose scope does not decode adds nothing, not even the
`,`, but its reads still overwrite `typeName` and `nameSpace`. -/
def typeRefHashStep (src : TypeRefHashSources) (getString : Nat → Option Bytes)
    (typeRefs : List TypeRefRow) (st : TypeRefHashState) (row : TypeRefRow) :
    TypeRefHashState :=
  let typeName := readName getString row.typeName st.typeName
  let nameSpace := readName getString row.typeNamespace st.nameSpace
  match resolutionScopeTable row.resolutionScope with
  | none => { st with typeName := typeName.1, nameSpace := nameSpace.1 }
  | some scopeType =>
    let scope := scopeName src typeRefs scopeType row.resolutionScope.index
    let referencedName := readReferencedName getString scope.1 scope.2 st.referencedName
    ⟨appendJoined (ascii ",") st.typeRefHashBytes (fullName typeName nameSpace referencedName),
      typeName.1, nameSpace.1, referencedName.1⟩

/-- The bytes the three digests are computed from, over rows `1` to `getNumberOfRows()`
in order; `none` when the function returns early and sets no hash. -/
def computeTypeRefHashes (src : TypeRefHashSources) : Option Bytes :=
  match src.getString, src.typeRefTable with
  | some getString, some typeRefs =>
    some (typeRefs.foldl (typeRefHashStep src getString typeRefs) ⟨[], [], [], []⟩).typeRefHashBytes
  | _, _ => none

/-! ## The hash input as a function of the rows -/

def namePart (getString : Nat → Option Bytes) (index : Nat) : Option Bytes :=
  (getString index).filter (!·.isEmpty)

def typeRefFullName (src : TypeRefHashSources) (getString : Nat → Option Bytes)
    (typeRefs : List TypeRefRow) (row : TypeRefRow) : Option Bytes :=
  (resolutionScopeTable row.resolutionScope).map fun scopeType =>
    let scope := scopeName src typeRefs scopeType row.resolutionScope.index
    (ascii ".").intercalate
      ([namePart getString row.typeName, namePart getString row.typeNamespace,
        (scope.1.bind (namePart getString)).map (· ++ scope.2)].filterMap id)

def typeRefHashInput (src : TypeRefHashSources) : Option Bytes :=
  match src.getString, src.typeRefTable with
  | some getString, some typeRefs =>
    some ((ascii ",").intercalate
      ((typeRefs.filterMap (typeRefFullName src getString typeRefs)).dropWhile (·.isEmpty)))
  | _, _ => none

/-! ## Joining -/

section Joining

variable {sep : Bytes}

theorem intercalate_cons (p : Bytes) (ps : List Bytes) :
    sep.intercalate (p :: ps) = p ++ ps.flatMap (sep ++ ·) := by
  induction ps generalizing p with
  | nil => simp [List.intercalate]
  | cons q qs ih =>
    calc sep.intercalate (p :: q :: qs) = p ++ (sep ++ sep.intercalate (q :: qs)) := by
          simp [List.intercalate, List.intersperse_cons_cons]
      _ = p ++ (q :: qs).flatMap (sep ++ ·) := by simp [ih]

theorem foldl_appendJoined_of_ne_nil {s : Bytes} (ps : List Bytes) (hs : s ≠ []) :
    ps.foldl (appendJoined sep) s = s ++ ps.flatMap (sep ++ ·) := by
  induction ps generalizing s with
  | nil => simp
  | cons p ps ih =>
    rw [List.foldl_cons, ih (by simp [appendJoined, hs])]
    simp [appendJoined, hs]

theorem foldl_appendJoined_nil (ps : List Bytes) :
    ps.foldl (appendJoined sep) [] = sep.intercalate (ps.dropWhile (·.isEmpty)) := by
  induction ps with
  | nil => rfl
  | cons p ps ih =>
    rw [List.foldl_cons, show appendJoined sep [] p = p by simp [appendJoined]]
    by_cases hp : p = []
    · subst hp
      simpa using ih
    · rw [foldl_appendJoined_of_ne_nil ps hp, List.dropWhile_cons_of_neg (by simpa using hp),
        intercalate_cons]

theorem dropWhile_isEmpty_of_ne_nil {ps : List Bytes} (h : ∀ p ∈ ps, p ≠ []) :
    ps.dropWhile (·.isEmpty) = ps := by
  cases ps with
  | nil => rfl
  | cons p ps =>
    exact List.dropWhile_cons_of_neg (by simpa using h p (List.mem_cons_self p ps))

end Joining

/-! ## One row -/

def validPart (p : Bytes × Bool) : Option Bytes := if p.2 then some p.1 else none

variable {getString : Nat → Option Bytes}

theorem readName_validPart (index : Nat) (out : Bytes) :
    validPart (readName getString index out) = namePart getString index := by
  unfold readName namePart
  cases getString index <;> simp [validPart, Option.filter_some, List.isEmpty_iff]

theorem readReferencedName_validPart (nameIndex : Option Nat) (suffix out : Bytes) :
    validPart (readReferencedName getString nameIndex suffix out) =
      (nameIndex.bind (namePart getString)).map (· ++ suffix) := by
  cases nameIndex with
  | none => rfl
  | some index =>
    rw [Option.some_bind, ← readName_validPart index out]
    cases h : readName getString index out with
    | mk name valid => cases valid <;> simp [readReferencedName, h, validPart]

theorem ne_nil_of_namePart {index : Nat} {s : Bytes} (h : namePart getString index = some s) :
    s ≠ [] := by
  unfold namePart at h
  cases hg : getString index with
  | none => simp [hg] at h
  | some t =>
    rw [hg, Option.filter_some] at h
    split_ifs at h with ht
    cases h
    simpa [List.isEmpty_iff] using ht

theorem fullName_eq (a b c : Bytes × Bool) :
    fullName a b c = ([validPart a, validPart b, validPart c].filterMap id).foldl
      (appendJoined (ascii ".")) [] := by
  obtain ⟨a, _ | _⟩ := a <;> obtain ⟨b, _ | _⟩ := b <;> obtain ⟨c, _ | _⟩ := c <;>
    simp [fullName, validPart, appendJoined]

theorem typeRefHashStep_bytes (src : TypeRefHashSources) (typeRefs : List TypeRefRow)
    (st : TypeRefHashState) (row : TypeRefRow) :
    (typeRefHashStep src getString typeRefs st row).typeRefHashBytes =
      (typeRefFullName src getString typeRefs row).toList.foldl (appendJoined (ascii ","))
        st.typeRefHashBytes := by
  unfold typeRefHashStep typeRefFullName
  cases resolutionScopeTable row.resolutionScope with
  | none => rfl
  | some scopeType =>
    simp only [Option.map_some', Option.toList_some, List.foldl_cons, List.foldl_nil,
      fullName_eq, readName_validPart, readReferencedName_validPart, foldl_appendJoined_nil]
    congr 2
    refine dropWhile_isEmpty_of_ne_nil fun p hp => ?_
    simp only [List.mem_filterMap, id, List.mem_cons, List.mem_singleton,
      List.not_mem_nil, or_false] at hp
    obtain ⟨o, ho, rfl⟩ := hp
    rcases ho with h | h | h
    · exact ne_nil_of_namePart h.symm
    · exact ne_nil_of_namePart h.symm
    · obtain ⟨s, hs, rfl⟩ := Option.map_eq_some'.mp h.symm
      obtain ⟨i, -, hi⟩ := Option.bind_eq_some.mp hs
      simp [ne_nil_of_namePart hi]

/-! ## The loop -/

theorem foldl_typeRefHashStep_bytes (src : TypeRefHashSources) (typeRefs rows : List TypeRefRow)
    (st : TypeRefHashState) :
    (rows.foldl (typeRefHashStep src getString typeRefs) st).typeRefHashBytes =
      (rows.filterMap (typeRefFullName src getString typeRefs)).foldl
        (appendJoined (ascii ",")) st.typeRefHashBytes := by
  induction rows generalizing st with
  | nil => rfl
  | cons row rows ih =>
    rw [List.foldl_cons, ih, typeRefHashStep_bytes, List.filterMap_cons]
    cases typeRefFullName src getString typeRefs row <;> rfl

theorem computeTypeRefHashes_eq_input (src : TypeRefHashSources) :
    computeTypeRefHashes src = typeRefHashInput src := by
  rcases src with ⟨_ | getString, _ | typeRefs, moduleTable, moduleRefTable, assemblyRefTable⟩
  · rfl
  · rfl
  · rfl
  · simp only [computeTypeRefHashes, typeRefHashInput]
    rw [foldl_typeRefHashStep_bytes, foldl_appendJoined_nil]

/-- The second row's strings are missing: it adds only its scope's name, not the first
row's type name and namespace that the loop still holds. -/
example : computeTypeRefHashes
    ⟨some fun i => if i = 1 then some (ascii "A") else if i = 2 then some (ascii "N")
      else if i = 3 then some (ascii "lib") else none,
     some [⟨⟨⟨2, 1⟩, 1⟩, 2⟩, ⟨⟨⟨2, 1⟩, 5⟩, 6⟩], none, none, some [⟨3⟩]⟩ =
    some (ascii "A.N.libAR,libAR") := by decide

end PeFormat
