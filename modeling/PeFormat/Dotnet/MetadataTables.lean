import PeFormat.Image
import Mathlib.Data.List.Nodup
import Mathlib.Algebra.BigOperators.Group.List
import Mathlib.Algebra.Order.Ring.Nat

/-!
The `#~` metadata stream (ECMA-335 II.24.2.6) as `parseMetadataStream` decodes it. After
a 24-byte header, the bit vector `valid` marks the present tables; a 4-byte row count
follows for each, and then the rows of the present tables one table after the other, in
id order. The row types' `load` methods are not in the sources: a row loader is a
parameter, and a row is known by the address it was loaded from. The fields are read little
endian, as `getEndianness` gives them for every machine but `R3000_BIG`.
-/
namespace PeFormat

/-- The table types with the ids of `MetadataTableType`, 0x00 to 0x2C. -/
inductive MetadataTableType
  | Module | TypeRef | TypeDef | FieldPtr | Field | MethodPtr | MethodDef | ParamPtr | Param
  | InterfaceImpl | MemberRef | Constant | CustomAttribute | FieldMarshal | DeclSecurity
  | ClassLayout | FieldLayout | StandAloneSig | EventMap | EventPtr | Event | PropertyMap
  | PropertyPtr | Property | MethodSemantics | MethodImpl | ModuleRef | TypeSpec | ImplMap
  | FieldRVA | ENCLog | ENCMap | Assembly | AssemblyProcessor | AssemblyOS | AssemblyRef
  | AssemblyRefProcessor | AssemblyRefOS | File | ExportedType | ManifestResource | NestedClass
  | GenericParam | MethodSpec | GenericParamContstraint
  deriving DecidableEq, Repr

namespace MetadataTableType

def all : List MetadataTableType :=
  [Module, TypeRef, TypeDef, FieldPtr, Field, MethodPtr, MethodDef, ParamPtr, Param,
    InterfaceImpl, MemberRef, Constant, CustomAttribute, FieldMarshal, DeclSecurity,
    ClassLayout, FieldLayout, StandAloneSig, EventMap, EventPtr, Event, PropertyMap,
    PropertyPtr, Property, MethodSemantics, MethodImpl, ModuleRef, TypeSpec, ImplMap,
    FieldRVA, ENCLog, ENCMap, Assembly, AssemblyProcessor, AssemblyOS, AssemblyRef,
    AssemblyRefProcessor, AssemblyRefOS, File, ExportedType, ManifestResource, NestedClass,
    GenericParam, MethodSpec, GenericParamContstraint]

/-- `static_cast<MetadataTableType>(i)` for the ids the enumeration names. -/
def ofId (i : Nat) : Option MetadataTableType := all[i]?

def toId (t : MetadataTableType) : Nat := all.indexOf t

theorem ofId_toId (t : MetadataTableType) : ofId t.toId = some t := by
  cases t <;> rfl

theorem toId_lt (t : MetadataTableType) : t.toId < 45 := by
  cases t <;> decide

theorem all_nodup : all.Nodup := by decide

theorem ofId_eq_some {i : Nat} {t : MetadataTableType} : ofId i = some t ↔ t.toId = i := by
  constructor
  · intro h
    obtain ⟨hi, rfl⟩ := List.getElem?_eq_some_iff.mp h
    exact List.indexOf_getElem all_nodup i hi
  · rintro rfl
    exact ofId_toId t

theorem toId_eq_iff_of_ofId_eq_some {i : Nat} {t u : MetadataTableType} (h : ofId i = some u) :
    t.toId = i ↔ t = u := by
  rw [← ofId_eq_some, h, Option.some.injEq, eq_comm]

theorem toId_ne_of_ofId_eq_none {i : Nat} (h : ofId i = none) (t : MetadataTableType) :
    t.toId ≠ i := by
  rintro rfl
  simp [ofId_toId] at h

/-- The types the dispatch switch of `parseMetadataStream` has a case for: every type but
`EventPtr` and `MethodSpec`, which fall to `default: break`. -/
def parsedBySwitch : MetadataTableType → Bool
  | Module | TypeRef | TypeDef | FieldPtr | Field | MethodPtr | MethodDef | ParamPtr | Param
  | InterfaceImpl | MemberRef | Constant | CustomAttribute | FieldMarshal | DeclSecurity
  | ClassLayout | FieldLayout | StandAloneSig | EventMap | Event | PropertyMap | PropertyPtr
  | Property | MethodSemantics | MethodImpl | ModuleRef | TypeSpec | ImplMap | FieldRVA
  | ENCLog | ENCMap | Assembly | AssemblyProcessor | AssemblyOS | AssemblyRef
  | AssemblyRefProcessor | AssemblyRefOS | File | ExportedType | ManifestResource
  | NestedClass | GenericParam | GenericParamContstraint => true
  | _ => false

end MetadataTableType

open MetadataTableType

structure MetadataTable where
  type : MetadataTableType
  size : Nat
  rows : List Nat
  deriving DecidableEq, Repr

abbrev MetadataTables := MetadataTableType → Option MetadataTable

structure MetadataStream where
  offset : Nat
  size : Nat
  majorVersion : Nat
  minorVersion : Nat
  stringStreamIndexSize : Nat
  guidStreamIndexSize : Nat
  blobStreamIndexSize : Nat
  tables : MetadataTables

def MetadataStream.getMetadataTable (s : MetadataStream) (t : MetadataTableType) :
    Option MetadataTable :=
  s.tables t

/-- A row's `load`: from the row's address, the address after it, or, as an error, the
address reached when `InvalidDotnetRecordError` was thrown. -/
abbrev RowLoader := MetadataTableType → Nat → Except Nat Nat

/-- Modelled from the spec: `MetadataStream::addMetadataTable` is not in the sources; it
keeps one empty table per type and none for an id the enumeration does not name. -/
def addMetadataTable (tables : MetadataTables) (i tableSize : Nat) : MetadataTables :=
  match ofId i with
  | some t => Function.update tables t (some ⟨t, tableSize, []⟩)
  | none => tables

/-- Bit `i` of `valid`, as the code tests it: `(valid >> i) & 1`. -/
def isPresent (valid i : Nat) : Bool := (valid >>> i) &&& 1 == 1

/-- One pass of the loop over the row counts; an error is the early `return`. -/
def tableSizeStep (img : Image) (valid : Nat) (st : Nat × MetadataTables) (i : Nat) :
    Except MetadataTables (Nat × MetadataTables) :=
  if isPresent valid i then
    match img.get4Byte st.1 .little with
    | none => .error st.2
    | some tableSize =>
      if tableSize > img.getLoadedFileLength then .error st.2
      else .ok (st.1 + 4, addMetadataTable st.2 i tableSize)
  else .ok st

/-- The loop of `parseMetadataTable`: rows are loaded until `size` of them are, or one
throws. -/
def loadRows (loadRow : RowLoader) (t : MetadataTableType) : Nat → Nat → List Nat × Nat
  | 0, address => ([], address)
  | n + 1, address =>
    match loadRow t address with
    | .ok next => let r := loadRows loadRow t n next; (address :: r.1, r.2)
    | .error next => ([], next)

def parseMetadataTable (loadRow : RowLoader) (table : MetadataTable) (address : Nat) :
    MetadataTable × Nat :=
  let r := loadRows loadRow table.type table.size address
  ({ table with rows := table.rows ++ r.1 }, r.2)

/-- One pass of the dispatch loop over the table ids. -/
def tableParseStep (loadRow : RowLoader) (st : Nat × MetadataTables) (i : Nat) :
    Nat × MetadataTables :=
  match (ofId i).bind st.2 with
  | some table =>
    if parsedBySwitch table.type then
      let r := parseMetadataTable loadRow table st.1
      (r.2, Function.update st.2 table.type (some r.1))
    else st
  | none => st

def metadataStreamHeaderSize : Nat := 24

def parseMetadataStream (img : Image) (loadRow : RowLoader) (baseAddress offset size : Nat) :
    Option MetadataStream :=
  if size ≤ metadataStreamHeaderSize then none
  else
    let address := baseAddress + offset
    let created : MetadataStream := ⟨offset, size, 0, 0, 0, 0, 0, fun _ => none⟩
    some <|
      match img.get1Byte (address + 4), img.get1Byte (address + 5), img.get1Byte (address + 6),
        img.get8Byte (address + 8) .little, img.get8Byte (address + 16) .little with
      | some majorVersion, some minorVersion, some heapOffsetSizes, some valid, some _ =>
        let s : MetadataStream :=
          { created with
            majorVersion := majorVersion
            minorVersion := minorVersion
            stringStreamIndexSize := if heapOffsetSizes &&& 0x01 != 0 then 4 else 2
            guidStreamIndexSize := if heapOffsetSizes &&& 0x02 != 0 then 4 else 2
            blobStreamIndexSize := if heapOffsetSizes &&& 0x04 != 0 then 4 else 2 }
        match (List.range 64).foldlM (tableSizeStep img valid)
            (address + metadataStreamHeaderSize, s.tables) with
        | .error tables => { s with tables := tables }
        | .ok (currentAddress, tables) =>
          { s with tables := ((List.range 64).foldl (tableParseStep loadRow)
              (currentAddress, tables)).2 }
      | _, _, _, _, _ => created

/-! ## Where the rows of each table are decoded -/

def presentBelow (valid n : Nat) : Nat := ((List.range n).filter (isPresent valid)).length

def idRowSize (rowSize : MetadataTableType → Nat) (j : Nat) : Nat := ((ofId j).map rowSize).getD 0

def rowBytesBelow (keep : Nat → Bool) (valid : Nat) (count : Nat → Nat)
    (rowSize : MetadataTableType → Nat) (n : Nat) : Nat :=
  (((List.range n).filter fun j => isPresent valid j && keep j).map
    fun j => count j * idRowSize rowSize j).sum

/-- The ids the dispatch switch parses. -/
def parsedId (j : Nat) : Bool := ((ofId j).map parsedBySwitch).getD false

def ecmaTableStart (address valid : Nat) (count : Nat → Nat) (rowSize : MetadataTableType → Nat)
    (t : MetadataTableType) : Nat :=
  address + metadataStreamHeaderSize + 4 * presentBelow valid 64 +
    rowBytesBelow (fun _ => true) valid count rowSize t.toId

/-- Where `parseMetadataStream` starts on table `t`: tables without a switch case are
not stepped over. -/
def decodeStart (address valid : Nat) (count : Nat → Nat) (rowSize : MetadataTableType → Nat)
    (t : MetadataTableType) : Nat :=
  address + metadataStreamHeaderSize + 4 * presentBelow valid 64 +
    rowBytesBelow parsedId valid count rowSize t.toId

def rowsFrom (a rowSize : Nat) : Nat → List Nat
  | 0 => []
  | n + 1 => a :: rowsFrom (a + rowSize) rowSize n

def sizedTables (valid : Nat) (count : Nat → Nat) (n : Nat) : MetadataTables := fun t =>
  if t.toId < n ∧ isPresent valid t.toId then some ⟨t, count t.toId, []⟩ else none

def parsedTables (valid : Nat) (count : Nat → Nat) (rowSize : MetadataTableType → Nat)
    (start n : Nat) : MetadataTables := fun t =>
  if isPresent valid t.toId then
    some ⟨t, count t.toId, if t.toId < n ∧ parsedBySwitch t then
      rowsFrom (start + rowBytesBelow parsedId valid count rowSize t.toId) (rowSize t)
        (count t.toId) else []⟩
  else none

theorem presentBelow_succ (valid n : Nat) :
    presentBelow valid (n + 1) = presentBelow valid n + if isPresent valid n then 1 else 0 := by
  simp only [presentBelow, List.range_succ, List.filter_append]
  split <;> simp_all

theorem rowBytesBelow_succ (keep : Nat → Bool) (valid : Nat) (count : Nat → Nat)
    (rowSize : MetadataTableType → Nat) (n : Nat) :
    rowBytesBelow keep valid count rowSize (n + 1) = rowBytesBelow keep valid count rowSize n +
      if isPresent valid n && keep n then count n * idRowSize rowSize n else 0 := by
  simp only [rowBytesBelow, List.range_succ, List.filter_append]
  split <;> simp_all [List.sum_append]

theorem loadRows_uniform {loadRow : RowLoader} {rowSize : MetadataTableType → Nat}
    (hrow : ∀ t a, loadRow t a = .ok (a + rowSize t)) (t : MetadataTableType) (n a : Nat) :
    loadRows loadRow t n a = (rowsFrom a (rowSize t) n, a + n * rowSize t) := by
  induction n generalizing a with
  | zero => simp [loadRows, rowsFrom]
  | succ n ih =>
    simp only [loadRows, hrow, ih, rowsFrom, Prod.mk.injEq, true_and]
    rw [Nat.succ_mul]
    omega

variable {img : Image} {valid start : Nat} {count : Nat → Nat}

theorem tableSizes_loop {n : Nat}
    (hcount : ∀ i < n, isPresent valid i →
      img.get4Byte (start + 4 * presentBelow valid i) .little = some (count i) ∧
        count i ≤ img.getLoadedFileLength) :
    (List.range n).foldlM (tableSizeStep img valid) (start, fun _ => none) =
      .ok (start + 4 * presentBelow valid n, sizedTables valid count n) := by
  induction n with
  | zero => rfl
  | succ n ih =>
    rw [List.range_succ, List.foldlM_append, ih (fun i hi => hcount i (by omega))]
    change tableSizeStep img valid _ n >>= pure = _
    rw [bind_pure, tableSizeStep, presentBelow_succ]
    split
    · rename_i present
      obtain ⟨read, fits⟩ := hcount n (by omega) present
      simp only [read, if_neg (Nat.not_lt.mpr fits), present, if_true]
      congr 2
      funext t
      cases hid : ofId n with
      | none =>
        simp [addMetadataTable, hid, sizedTables, toId_ne_of_ofId_eq_none hid t,
          Nat.lt_succ_iff_lt_or_eq]
      | some u =>
        by_cases e : t = u
        · subst e; simp [addMetadataTable, hid, sizedTables, ofId_eq_some.mp hid, present]
        · simp [addMetadataTable, hid, sizedTables, e, (toId_eq_iff_of_ofId_eq_some hid).not.mpr e,
            Nat.lt_succ_iff_lt_or_eq]
    · rename_i absent
      simp only [absent, if_false, Nat.add_zero, Except.ok.injEq, Prod.mk.injEq, true_and]
      funext t
      by_cases e : t.toId = n
      · simp [sizedTables, e, absent]
      · simp [sizedTables, e, Nat.lt_succ_iff_lt_or_eq]

variable {loadRow : RowLoader} {rowSize : MetadataTableType → Nat}

theorem tableParse_loop (hrow : ∀ t a, loadRow t a = .ok (a + rowSize t)) (n : Nat) :
    (List.range n).foldl (tableParseStep loadRow) (start, sizedTables valid count 64) =
      (start + rowBytesBelow parsedId valid count rowSize n,
        parsedTables valid count rowSize start n) := by
  induction n with
  | zero =>
    refine Prod.ext rfl (funext fun t => ?_)
    simp [sizedTables, parsedTables, Nat.lt_trans (toId_lt t) (by decide : 45 < 64)]
  | succ n ih =>
    rw [List.range_succ, List.foldl_append, ih, List.foldl_cons, List.foldl_nil, tableParseStep,
      rowBytesBelow_succ]
    cases hid : ofId n with
    | none =>
      refine Prod.ext (by simp [parsedId, hid]) (funext fun t => ?_)
      simp [parsedTables, Nat.lt_succ_iff_lt_or_eq, toId_ne_of_ofId_eq_none hid t]
    | some u =>
      have hu := ofId_eq_some.mp hid
      have same : ∀ t : MetadataTableType, t.toId = n ↔ t = u := fun _ =>
        toId_eq_iff_of_ofId_eq_some hid
      by_cases present : isPresent valid n
      · by_cases parsed : parsedBySwitch u
        · simp only [Option.some_bind, parsedTables, hu, present, lt_irrefl, false_and, if_false,
            if_true, parsed, parseMetadataTable, loadRows_uniform hrow, List.nil_append]
          refine Prod.ext (by simp [parsedId, idRowSize, hid, present, parsed, Nat.add_assoc])
            (funext fun t => ?_)
          by_cases e : t = u
          · subst e; simp [parsedTables, hu, present, parsed]
          · simp [parsedTables, e, Nat.lt_succ_iff_lt_or_eq, (same t).not.mpr e]
        · simp only [Option.some_bind, parsedTables, hu, present, if_true, parsed, if_false]
          refine Prod.ext (by simp [parsedId, hid, present, parsed]) (funext fun t => ?_)
          by_cases e : t = u
          · subst e; simp [parsedTables, hu, present, parsed]
          · simp [parsedTables, Nat.lt_succ_iff_lt_or_eq, (same t).not.mpr e]
      · simp only [Option.some_bind, parsedTables, hu, present, if_false]
        refine Prod.ext (by simp [present]) (funext fun t => ?_)
        by_cases e : t = u
        · subst e; simp [parsedTables, hu, present]
        · simp [parsedTables, Nat.lt_succ_iff_lt_or_eq, (same t).not.mpr e]

variable {baseAddress offset size : Nat}

theorem parseMetadataStream_tables (hsize : metadataStreamHeaderSize < size)
    (hheader : ∃ major minor heapOffsetSizes sorted,
      img.get1Byte (baseAddress + offset + 4) = some major ∧
      img.get1Byte (baseAddress + offset + 5) = some minor ∧
      img.get1Byte (baseAddress + offset + 6) = some heapOffsetSizes ∧
      img.get8Byte (baseAddress + offset + 16) .little = some sorted)
    (hvalid : img.get8Byte (baseAddress + offset + 8) .little = some valid)
    (hcount : ∀ i < 64, isPresent valid i →
      img.get4Byte (baseAddress + offset + metadataStreamHeaderSize + 4 * presentBelow valid i)
        .little = some (count i) ∧ count i ≤ img.getLoadedFileLength)
    (hrow : ∀ t a, loadRow t a = .ok (a + rowSize t)) :
    ∃ s, parseMetadataStream img loadRow baseAddress offset size = some s ∧
      ∀ t, s.getMetadataTable t = if isPresent valid t.toId then
        some ⟨t, count t.toId, if parsedBySwitch t then
          rowsFrom (decodeStart (baseAddress + offset) valid count rowSize t) (rowSize t)
            (count t.toId) else []⟩
        else none := by
  obtain ⟨major, minor, flags, sorted, h4, h5, h6, h16⟩ := hheader
  simp only [parseMetadataStream, if_neg (Nat.not_le.mpr hsize), h4, h5, h6, hvalid, h16,
    tableSizes_loop hcount, tableParse_loop hrow, Option.some.injEq, exists_eq_left',
    MetadataStream.getMetadataTable]
  intro t
  simp [parsedTables, decodeStart, Nat.lt_trans (toId_lt t) (by decide : 45 < 64)]

theorem parsedBySwitch_eq_false {t : MetadataTableType} :
    parsedBySwitch t = false ↔ t = EventPtr ∨ t = MethodSpec := by
  cases t <;> decide

theorem decodeStart_eq_ecmaTableStart (address : Nat)
    (noGap : isPresent valid EventPtr.toId = false ∧ isPresent valid MethodSpec.toId = false)
    (t : MetadataTableType) :
    decodeStart address valid count rowSize t = ecmaTableStart address valid count rowSize t := by
  suffices ∀ n, rowBytesBelow parsedId valid count rowSize n =
      rowBytesBelow (fun _ => true) valid count rowSize n by
    simp [decodeStart, ecmaTableStart, this]
  intro n
  induction n with
  | zero => rfl
  | succ n ih =>
    rw [rowBytesBelow_succ, rowBytesBelow_succ, ih]
    cases hid : ofId n with
    | none => simp [idRowSize, hid]
    | some u =>
      have hu := ofId_eq_some.mp hid
      by_cases present : isPresent valid n
      · have : parsedBySwitch u = true := by
          cases h : parsedBySwitch u
          · rcases parsedBySwitch_eq_false.mp h with rfl | rfl <;> simp_all
          · rfl
        simp [parsedId, hid, present, this]
      · simp [present]

theorem decodeStart_customAttribute :
    decodeStart 0 0x1C57 (fun _ => 3) (fun _ => 2) CustomAttribute =
      ecmaTableStart 0 0x1C57 (fun _ => 3) (fun _ => 2) CustomAttribute :=
  decodeStart_eq_ecmaTableStart 0 ⟨by decide, by decide⟩ CustomAttribute

def eventPtrStream : Image :=
  ⟨[0, 0, 0, 0, 2, 0, 0, 0, 0, 0, 0x18, 0, 0, 0, 0, 0, 0, 0, 0, 0, 0, 0, 0, 0,
    1, 0, 0, 0, 1, 0, 0, 0, 0xAA, 0xBB], some, by decide⟩

theorem parseMetadataStream_eventPtrStream :
    ∃ s, parseMetadataStream eventPtrStream (fun _ a => .ok (a + 1)) 0 0 34 = some s ∧
      ∀ t, s.getMetadataTable t = if isPresent 0x180000 t.toId then
        some ⟨t, 1, if parsedBySwitch t then
          rowsFrom (decodeStart (0 + 0) 0x180000 (fun _ => 1) (fun _ => 1) t) 1 1 else []⟩
        else none :=
  @parseMetadataStream_tables eventPtrStream 0x180000 (fun _ => 1) (fun _ a => .ok (a + 1))
    (fun _ => 1) 0 0 34 (by decide) ⟨2, 0, 0, 0, by decide, by decide, by decide, by decide⟩
    (by decide) (by decide) fun _ _ => rfl

theorem parseMetadataStream_skips_eventPtr :
    ((parseMetadataStream eventPtrStream (fun _ a => .ok (a + 1)) 0 0 34).bind
        (·.getMetadataTable Event)) = some ⟨Event, 1, [32]⟩ ∧
      ecmaTableStart 0 0x180000 (fun _ => 1) (fun _ => 1) Event = 33 := by
  decide

end PeFormat
