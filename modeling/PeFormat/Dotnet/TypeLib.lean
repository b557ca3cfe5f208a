import Mathlib.Data.List.OfFn
import Mathlib.Algebra.Order.Ring.Nat
import PeFormat.Image

/-!
`detectTypeLibId`: the TypeLib GUID of a .NET file, the argument of the `GuidAttribute`
custom attribute. Three searches follow the chain TypeRef `GuidAttribute` of `mscorlib`,
the MemberRef of its constructor, and the CustomAttribute built with that constructor.
Each search reports "not found" by the table's row count, which is also a valid row.
The heaps are parameters: `getString` for `StringStream::getString` and `getElement` for
`BlobStream::getElement`, which are not in the sources.
-/
namespace PeFormat

structure CodedIndex where
  tag : Nat
  index : Nat
  deriving DecidableEq, Repr

structure TypeRef where
  resolutionScope : CodedIndex
  typeName : Nat
  deriving DecidableEq, Repr

structure MemberRef where
  classType : CodedIndex
  deriving DecidableEq, Repr

structure CustomAttribute where
  type : CodedIndex
  value : Nat
  deriving DecidableEq, Repr

structure AssemblyRef where
  name : Nat
  deriving DecidableEq, Repr

/-- Modelled from the spec: `MetadataTable::getRow` is not in the sources; rows are
numbered from 1, and row 0 and the rows past the end are null. -/
def getRow {α : Type} (rows : List α) (i : Nat) : Option α :=
  if i = 0 then none else rows[i - 1]?

/-- What `detectTypeLibId` reads: the four tables and the two heaps, each possibly absent. -/
structure TypeLibSources where
  typeRefTable : Option (List TypeRef)
  memberRefTable : Option (List MemberRef)
  customAttributeTable : Option (List CustomAttribute)
  assemblyRefTable : Option (List AssemblyRef)
  getString : Option (Nat → Option Bytes)
  getElement : Option (Nat → Bytes)

/-- `retdec::utils::toLower`: ASCII capitals to small letters. -/
def toLower (s : Bytes) : Bytes :=
  s.map fun c => if 0x41 ≤ c ∧ c ≤ 0x5A then c + 0x20 else c

/-- `[a-z0-9]` under `std::regex::icase`. -/
def isGuidChar (c : UInt8) : Bool :=
  (0x30 ≤ c && c ≤ 0x39) || (0x61 ≤ c && c ≤ 0x7A) || (0x41 ≤ c && c ≤ 0x5A)

def matchGroups : List Nat → Bytes → Bool
  | [], s => s.isEmpty
  | [n], s => s.length == n && s.all isGuidChar
  | n :: ns, s =>
    (s.take n).length == n && (s.take n).all isGuidChar && s[n]? == some 0x2D &&
      matchGroups ns (s.drop (n + 1))

/-- `std::regex_match` with the GUID pattern of `detectTypeLibId`. -/
def isGuidText (s : Bytes) : Bool := matchGroups [8, 4, 4, 4, 12] s

def firstRowOr (n : Nat) (p : Nat → Bool) : Nat :=
  (((List.range n).map (· + 1)).find? p).getD n

/-- The test of the TypeRef loop at row `i`: its scope is an AssemblyRef row named
`mscorlib`, and its name is `GuidAttribute`. Only the indices are compared. -/
def isGuidTypeRef (getString : Nat → Option Bytes) (typeRefs : List TypeRef)
    (assemblyRefs : List AssemblyRef) (i : Nat) : Bool :=
  match getRow typeRefs i with
  | none => false
  | some typeRefRow =>
    match getRow assemblyRefs typeRefRow.resolutionScope.index with
    | none => false
    | some assemblyRef =>
      getString assemblyRef.name == some (ascii "mscorlib") &&
        getString typeRefRow.typeName == some (ascii "GuidAttribute")

/-- The CustomAttribute loop: the first attribute built with MemberRef `guidMemberRef`
whose value holds a GUID. `none` is a read past the end of the value blob, which
`std::string(typeLibData.data() + 3, length)` makes when `length` is too large. -/
def scanCustomAttributes (getElement : Nat → Bytes) (guidMemberRef : Nat) :
    List CustomAttribute → Option Bytes
  | [] => some []
  | row :: rows =>
    if row.type.index = guidMemberRef then
      let typeLibData := getElement row.value
      if typeLibData.length < 3 then scanCustomAttributes getElement guidMemberRef rows
      else
        let length := (typeLibData.getD 2 0).toNat
        if 3 + length ≤ typeLibData.length then
          let typeLibId := toLower ((typeLibData.drop 3).take length)
          if isGuidText typeLibId then some typeLibId
          else scanCustomAttributes getElement guidMemberRef rows
        else none
    else scanCustomAttributes getElement guidMemberRef rows

/-- The `typeLibId` that `detectTypeLibId` leaves, empty when it finds none. -/
def detectTypeLibId (src : TypeLibSources) : Option Bytes :=
  match src.getString, src.getElement, src.typeRefTable, src.memberRefTable,
      src.customAttributeTable, src.assemblyRefTable with
  | some getString, some getElement, some typeRefs, some memberRefs, some customAttributes,
      some assemblyRefs =>
    let guidTypeRef :=
      firstRowOr typeRefs.length (isGuidTypeRef getString typeRefs assemblyRefs)
    if guidTypeRef = typeRefs.length then some []
    else
      let guidMemberRef := firstRowOr memberRefs.length fun i =>
        (getRow memberRefs i).any (·.classType.index == guidTypeRef)
      if guidMemberRef = memberRefs.length then some []
      else scanCustomAttributes getElement guidMemberRef customAttributes
  | _, _, _, _, _, _ => some []

/-! ## The searches and the result -/

def firstRow (n : Nat) (p : Nat → Bool) : Option Nat := ((List.range n).map (· + 1)).find? p

def resolutionScopeAssemblyRef : Nat := 2
def memberRefParentTypeRef : Nat := 1
def customAttributeTypeMemberRef : Nat := 3

/-- The TypeLib id that the coded indices of ECMA-335 name: the first `GuidAttribute`
TypeRef of `mscorlib`, the first MemberRef on it, and the first CustomAttribute built with
that MemberRef whose value blob holds a GUID inside it; empty when the chain breaks. -/
def typeLibIdOfChain (src : TypeLibSources) : Bytes :=
  match src.getString, src.getElement, src.typeRefTable, src.memberRefTable,
      src.customAttributeTable, src.assemblyRefTable with
  | some getString, some getElement, some typeRefs, some memberRefs, some customAttributes,
      some assemblyRefs =>
    let guidTypeRef := firstRow typeRefs.length fun i =>
      match getRow typeRefs i with
      | some row => row.resolutionScope.tag == resolutionScopeAssemblyRef &&
          isGuidTypeRef getString typeRefs assemblyRefs i
      | none => false
    let guidMemberRef := guidTypeRef.bind fun t => firstRow memberRefs.length fun j =>
      (getRow memberRefs j).any (·.classType == ⟨memberRefParentTypeRef, t⟩)
    let found := guidMemberRef.bind fun m => customAttributes.findSome? fun row =>
      if row.type = ⟨customAttributeTypeMemberRef, m⟩ then
        let b := getElement row.value
        let length := (b.getD 2 0).toNat
        if 3 ≤ b.length ∧ 3 + length ≤ b.length ∧ isGuidText (toLower ((b.drop 3).take length))
        then some (toLower ((b.drop 3).take length)) else none
      else none
    found.getD []
  | _, _, _, _, _, _ => []

def chainStrings (i : Nat) : Option Bytes :=
  if i = 1 then some (ascii "mscorlib") else if i = 2 then some (ascii "GuidAttribute") else none

def chainBlob (_ : Nat) : Bytes := [1, 0, 36] ++ ascii "0123abcd-0000-1111-2222-33334444ABCD"

def lastRowChain : TypeLibSources :=
  ⟨some [⟨⟨resolutionScopeAssemblyRef, 1⟩, 2⟩], some [⟨⟨memberRefParentTypeRef, 1⟩⟩],
    some [⟨⟨customAttributeTypeMemberRef, 1⟩, 0⟩], some [⟨1⟩], some chainStrings, some chainBlob⟩

theorem detectTypeLibId_last_row :
    detectTypeLibId lastRowChain = some [] ∧
      typeLibIdOfChain lastRowChain = ascii "0123abcd-0000-1111-2222-33334444abcd" := by
  decide

end PeFormat
