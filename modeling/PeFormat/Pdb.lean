import PeFormat.Image
import Mathlib.Data.Nat.Digits

/-!
`loadPdbInfo`: the CodeView record of the first debug directory entry that holds one.
An entry's data must start with `RSDS` or `NB10` and be at least as long as the smallest
record of its kind; the record's fields are then read from the file at the entry's
`PointerToRawData`, in the file's byte order, except the last eight bytes of an RSDS
GUID, read in the other one. The GUID is printed with `numToStr(.., std::hex)`, without
padding, and upper-cased. The debug directory is PeLib's and not in the sources: the
entries are a parameter. `bytesToString` copies every byte, so the data and its string
have one length.
-/
namespace PeFormat

def minimalPdbNb10InfoLength : Nat := 17
def minimalPdbRsdsInfoLength : Nat := 25

/-- What PeLib gives for one debug directory entry: its data, `TimeDateStamp` and
`PointerToRawData`, each `none` when the getter fails. -/
structure DebugEntry where
  data : Option Bytes
  timeDateStamp : Option Nat
  pointerToRawData : Option Nat
  deriving DecidableEq, Repr

/-- The fields `loadPdbInfo` sets, `none` where it does not call the setter. -/
structure PdbInfo where
  type : Bytes
  timeStamp : Nat
  guid : Option Bytes
  age : Option Nat
  path : Option Bytes
  deriving DecidableEq, Repr

/-- `retdec::utils::toUpper`: ASCII small letters to capitals. -/
def toUpper (s : Bytes) : Bytes :=
  s.map fun c => if 0x61 ≤ c ∧ c ≤ 0x7A then c - 0x20 else c

/-- `numToStr(n, std::hex)`: small hexadecimal digits, without padding. -/
def hexText (n : Nat) : Bytes := (Nat.toDigits 16 n).map Char.toUInt8

def rsdsGuidText (res1 res2 res3 res4 res5 : Nat) : Bytes :=
  toUpper (hexText res1 ++ ascii "-" ++ hexText res2 ++ ascii "-" ++ hexText res3 ++
    ascii "-" ++ hexText res4 ++ ascii "-" ++ hexText res5)

/-- What the loop reads from the file once an entry has passed its checks; `type` is
the data's first four bytes, `prefix` in the source. -/
def readPdbRecord (img : Image) (e : Endianness) (type : Bytes)
    (timestamp pointerToRawData : Nat) : PdbInfo :=
  let isRsds := type == ascii "RSDS"
  let guidOffset := pointerToRawData + type.length + if isRsds then 0 else 4
  let guid :=
    if isRsds then
      match img.get4ByteOffset guidOffset e, img.get2ByteOffset (guidOffset + 4) e,
          img.get2ByteOffset (guidOffset + 6) e, img.get2ByteOffset (guidOffset + 8) e.inverse,
          img.getXByteOffset (guidOffset + 10) 6 e.inverse with
      | some res1, some res2, some res3, some res4, some res5 =>
        some (rsdsGuidText res1 res2 res3 res4 res5)
      | _, _, _, _, _ => none
    else (img.get4ByteOffset guidOffset e).map fun res1 => toUpper (hexText res1)
  let ageOffset := guidOffset + if isRsds then 16 else 4
  ⟨type, timestamp, guid, img.get4ByteOffset ageOffset e, img.getNTBSOffset (ageOffset + 4) 0⟩

/-- The body of the loop for one entry: `none` where it continues, the record where it
breaks. -/
def readPdbEntry (img : Image) (e : Endianness) (entry : DebugEntry) : Option PdbInfo :=
  match entry.data with
  | none => none
  | some data =>
    let size := data.length
    let type := data.take 4
    if size < 4 then none
    else if (type ≠ ascii "RSDS" ∧ type ≠ ascii "NB10") ∨
        (type = ascii "RSDS" ∧ size < minimalPdbRsdsInfoLength) ∨
        (type = ascii "NB10" ∧ size < minimalPdbNb10InfoLength) then none
    else
      match entry.timeDateStamp, entry.pointerToRawData with
      | some timestamp, some pointerToRawData =>
        some (readPdbRecord img e type timestamp pointerToRawData)
      | _, _ => none

/-- The loop over the debug entries, up to the first `break`. -/
def loadPdbInfo (img : Image) (e : Endianness) : List DebugEntry → Option PdbInfo
  | [] => none
  | entry :: entries =>
    match readPdbEntry img e entry with
    | some info => some info
    | none => loadPdbInfo img e entries

/-! ## CodeView records -/

inductive CodeViewRecord
  | rsds (data1 data2 data3 : Nat) (data4 : Bytes) (age : Nat) (path : Bytes)
  | nb10 (offset signature age : Nat) (path : Bytes)
  deriving DecidableEq, Repr

namespace CodeViewRecord

def bytes : CodeViewRecord → Bytes
  | rsds data1 data2 data3 data4 age path =>
    ascii "RSDS" ++ leBytes 4 data1 ++ leBytes 2 data2 ++ leBytes 2 data3 ++ data4 ++
      leBytes 4 age ++ path ++ [0]
  | nb10 offset signature age path =>
    ascii "NB10" ++ leBytes 4 offset ++ leBytes 4 signature ++ leBytes 4 age ++ path ++ [0]

def WellFormed : CodeViewRecord → Prop
  | rsds data1 data2 data3 data4 age path =>
    data1 < 2 ^ 32 ∧ data2 < 2 ^ 16 ∧ data3 < 2 ^ 16 ∧ data4.length = 8 ∧ age < 2 ^ 32 ∧
      (0 : UInt8) ∉ path
  | nb10 _ signature age path => signature < 2 ^ 32 ∧ age < 2 ^ 32 ∧ (0 : UInt8) ∉ path

instance (r : CodeViewRecord) : Decidable r.WellFormed :=
  match r with
  | rsds .. => inferInstanceAs (Decidable (_ ∧ _ ∧ _ ∧ _ ∧ _ ∧ _))
  | nb10 .. => inferInstanceAs (Decidable (_ ∧ _ ∧ _))

def info (timeStamp : Nat) : CodeViewRecord → PdbInfo
  | rsds data1 data2 data3 data4 age path =>
    ⟨ascii "RSDS", timeStamp,
      some (rsdsGuidText data1 data2 data3 (bytesValue .big (data4.take 2))
        (bytesValue .big (data4.drop 2))), some age, some path⟩
  | nb10 _ signature age path =>
    ⟨ascii "NB10", timeStamp, some (toUpper (hexText signature)), some age, some path⟩

end CodeViewRecord

/-! ## The loop body -/

theorem ascii_RSDS : ascii "RSDS" = [0x52, 0x53, 0x44, 0x53] := rfl
theorem ascii_NB10 : ascii "NB10" = [0x4E, 0x42, 0x31, 0x30] := rfl

variable {img : Image} {e : Endianness}

def PassesChecks (data : Bytes) : Prop :=
  data.take 4 = ascii "RSDS" ∧ minimalPdbRsdsInfoLength ≤ data.length ∨
    data.take 4 = ascii "NB10" ∧ minimalPdbNb10InfoLength ≤ data.length

instance (data : Bytes) : Decidable (PassesChecks data) := inferInstanceAs (Decidable (_ ∨ _))

theorem passesChecks_iff (data : Bytes) :
    PassesChecks data ↔ ¬data.length < 4 ∧
      ¬((data.take 4 ≠ ascii "RSDS" ∧ data.take 4 ≠ ascii "NB10") ∨
        (data.take 4 = ascii "RSDS" ∧ data.length < minimalPdbRsdsInfoLength) ∨
        (data.take 4 = ascii "NB10" ∧ data.length < minimalPdbNb10InfoLength)) := by
  have hne : ascii "RSDS" ≠ ascii "NB10" := by decide
  unfold PassesChecks minimalPdbRsdsInfoLength minimalPdbNb10InfoLength
  by_cases hR : data.take 4 = ascii "RSDS" <;> by_cases hN : data.take 4 = ascii "NB10" <;>
    simp [hR, hN, hne, hne.symm] <;> omega

theorem readPdbEntry_eq (data : Bytes) (timestamp pointerToRawData : Nat) :
    readPdbEntry img e ⟨some data, some timestamp, some pointerToRawData⟩ =
      if PassesChecks data then some (readPdbRecord img e (data.take 4) timestamp pointerToRawData)
      else none := by
  simp only [readPdbEntry]
  by_cases hc : PassesChecks data
  · obtain ⟨h4, hcond⟩ := (passesChecks_iff data).mp hc
    rw [if_neg h4, if_neg hcond, if_pos hc]
  · rw [if_neg hc]
    rw [passesChecks_iff, not_and_or, not_not, not_not] at hc
    split_ifs with h4 hcond
    · rfl
    · rfl
    · exact absurd (hc.resolve_left h4) hcond

theorem readPdbRecord_rsds (ts o : Nat) :
    readPdbRecord img e (ascii "RSDS") ts o = ⟨ascii "RSDS", ts,
      match img.get4ByteOffset (o + 4) e, img.get2ByteOffset (o + 8) e,
          img.get2ByteOffset (o + 10) e, img.get2ByteOffset (o + 12) e.inverse,
          img.getXByteOffset (o + 14) 6 e.inverse with
      | some res1, some res2, some res3, some res4, some res5 =>
        some (rsdsGuidText res1 res2 res3 res4 res5)
      | _, _, _, _, _ => none,
      img.get4ByteOffset (o + 20) e, img.getNTBSOffset (o + 24) 0⟩ := rfl

theorem readPdbRecord_nb10 (ts o : Nat) :
    readPdbRecord img e (ascii "NB10") ts o = ⟨ascii "NB10", ts,
      (img.get4ByteOffset (o + 8) e).map fun res1 => toUpper (hexText res1),
      img.get4ByteOffset (o + 12) e, img.getNTBSOffset (o + 16) 0⟩ := rfl

theorem exists_readPdbRecord {entry : DebugEntry} {info : PdbInfo}
    (h : readPdbEntry img e entry = some info) :
    ∃ (data : Bytes) (ts o : Nat), readPdbRecord img e (data.take 4) ts o = info := by
  rcases entry with ⟨_ | data, _ | ts, _ | o⟩ <;> simp only [readPdbEntry] at h <;>
    (try split_ifs at h) <;> cases h
  exact ⟨data, ts, o, rfl⟩

theorem loadPdbInfo_append_of_none {skipped : List DebugEntry}
    (hskip : ∀ x ∈ skipped, readPdbEntry img e x = none) (entries : List DebugEntry) :
    loadPdbInfo img e (skipped ++ entries) = loadPdbInfo img e entries := by
  induction skipped with
  | nil => rfl
  | cons x xs ih =>
    simp only [List.cons_append, loadPdbInfo, hskip x (List.mem_cons_self x xs)]
    exact ih fun y hy => hskip y (List.mem_cons_of_mem x hy)

theorem exists_readPdbEntry_of_loadPdbInfo {entries : List DebugEntry} {info : PdbInfo}
    (h : loadPdbInfo img e entries = some info) :
    ∃ entry ∈ entries, readPdbEntry img e entry = some info := by
  induction entries with
  | nil => cases h
  | cons entry entries ih =>
    simp only [loadPdbInfo] at h
    split at h
    · cases h
      exact ⟨entry, List.mem_cons_self entry entries, ‹_›⟩
    · obtain ⟨x, hx, hx'⟩ := ih h
      exact ⟨x, List.mem_cons_of_mem entry hx, hx'⟩

/-! ## Reading a record back -/

open CodeViewRecord

theorem readPdbRecord_rsds_record {o d1 d2 d3 age : Nat} {d4 path : Bytes}
    (hr : (rsds d1 d2 d3 d4 age path).WellFormed)
    (h : (rsds d1 d2 d3 d4 age path).bytes <+: img.bytes.drop o) (ts : Nat) :
    readPdbRecord img .little (ascii "RSDS") ts o = (rsds d1 d2 d3 d4 age path).info ts := by
  obtain ⟨h1, h2, h3, h4, hage, hpath⟩ := hr
  have hlen : (rsds d1 d2 d3 d4 age path).bytes.length = 25 + path.length := by
    simp [bytes, ascii_RSDS, h4]; omega
  have field (k n : Nat) (e : Endianness) (hn : 0 < n) (hk : k + n ≤ 24) :=
    Image.getXByteOffset_of_prefix e h (k := k) (n := n) (by omega) (by omega)
  have hz : (0 : UInt8) ∈ (rsds d1 d2 d3 d4 age path).bytes.drop 24 := by
    simp [bytes, ascii_RSDS, List.drop_append_eq_append_drop, List.drop_eq_nil_of_le, h4]
  rw [readPdbRecord_rsds, Image.get4ByteOffset, Image.get2ByteOffset, Image.get2ByteOffset,
    Image.get2ByteOffset, Image.get4ByteOffset, field 4 4 _ (by omega) (by omega),
    field 8 2 _ (by omega) (by omega), field 10 2 _ (by omega) (by omega),
    field 12 2 _ (by omega) (by omega), field 14 6 _ (by omega) (by omega),
    field 20 4 _ (by omega) (by omega), Image.getNTBSOffset_of_prefix h hz]
  simp only [ascii_RSDS, bytesValue, bytes, List.cons_append, List.singleton_append,
    List.append_assoc, List.drop_succ_cons, List.drop_append_eq_append_drop, List.drop_zero,
    leBytes_length, zero_le, Nat.sub_eq_zero_of_le, h4, List.take_left', List.drop_left',
    Nat.reduceLeDiff, List.drop_eq_nil_of_le, Nat.reduceSub, List.nil_append, Endianness.inverse,
    List.take_append_eq_append_take, List.take_zero, List.append_nil, List.length_drop, info,
    leValue_leBytes 4 d1 (by simpa using h1), leValue_leBytes 2 d2 (by simpa using h2),
    leValue_leBytes 2 d3 (by simpa using h3), leValue_leBytes 4 age (by simpa using hage),
    takeWhile_nulFree [] hpath]

theorem readPdbRecord_nb10_record {o offset signature age : Nat} {path : Bytes}
    (hr : (nb10 offset signature age path).WellFormed)
    (h : (nb10 offset signature age path).bytes <+: img.bytes.drop o) (ts : Nat) :
    readPdbRecord img .little (ascii "NB10") ts o = (nb10 offset signature age path).info ts := by
  obtain ⟨hs, hage, hpath⟩ := hr
  have hlen : (nb10 offset signature age path).bytes.length = 17 + path.length := by
    simp [bytes, ascii_NB10]; omega
  have field (k : Nat) (hk : k + 4 ≤ 16) :=
    Image.getXByteOffset_of_prefix .little h (k := k) (n := 4) (by omega) (by omega)
  have hz : (0 : UInt8) ∈ (nb10 offset signature age path).bytes.drop 16 := by
    simp [bytes, ascii_NB10, List.drop_append_eq_append_drop, List.drop_eq_nil_of_le]
  rw [readPdbRecord_nb10, Image.get4ByteOffset, Image.get4ByteOffset, field 8 (by omega),
    field 12 (by omega), Image.getNTBSOffset_of_prefix h hz]
  simp only [ascii_NB10, bytesValue, bytes, List.cons_append, List.singleton_append,
    List.append_assoc, List.drop_succ_cons, leBytes_length, List.drop_left', List.take_left',
    Option.map_some', List.drop_append_eq_append_drop, Nat.reduceLeDiff, List.drop_eq_nil_of_le,
    Nat.reduceSub, List.nil_append, info, leValue_leBytes 4 signature (by simpa using hs),
    leValue_leBytes 4 age (by simpa using hage), takeWhile_nulFree [] hpath]

theorem passesChecks_bytes {r : CodeViewRecord} (hr : r.WellFormed) (pad : Bytes) :
    PassesChecks (r.bytes ++ pad) := by
  cases r with
  | rsds => simp [PassesChecks, bytes, ascii_RSDS, minimalPdbRsdsInfoLength, hr.2.2.2.1]; omega
  | nb10 => simp [PassesChecks, bytes, ascii_NB10, minimalPdbNb10InfoLength]; omega

theorem readPdbEntry_record {r : CodeViewRecord} {o : Nat} (hr : r.WellFormed)
    (h : r.bytes <+: img.bytes.drop o) (pad : Bytes) (ts : Nat) :
    readPdbEntry img .little ⟨some (r.bytes ++ pad), some ts, some o⟩ = some (r.info ts) := by
  rw [readPdbEntry_eq, if_pos (passesChecks_bytes hr pad)]
  cases r with
  | rsds data1 data2 data3 data4 age path =>
    rw [show ((rsds data1 data2 data3 data4 age path).bytes ++ pad).take 4 = ascii "RSDS" by
      simp [bytes, ascii_RSDS], readPdbRecord_rsds_record hr h]
  | nb10 offset signature age path =>
    rw [show ((nb10 offset signature age path).bytes ++ pad).take 4 = ascii "NB10" by
      simp [bytes, ascii_NB10], readPdbRecord_nb10_record hr h]

theorem loadPdbInfo_record {r : CodeViewRecord} {o : Nat} (hr : r.WellFormed)
    (h : r.bytes <+: img.bytes.drop o) (skipped : List DebugEntry)
    (hskip : ∀ x ∈ skipped, readPdbEntry img .little x = none) (pad : Bytes) (ts : Nat)
    (rest : List DebugEntry) :
    loadPdbInfo img .little (skipped ++ ⟨some (r.bytes ++ pad), some ts, some o⟩ :: rest) =
      some (r.info ts) := by
  rw [loadPdbInfo_append_of_none hskip, loadPdbInfo, readPdbEntry_record hr h]

def nb10Sample : CodeViewRecord := .nb10 0 0x2A 1 (ascii "a.pdb")

def nb10SampleImage : Image := ⟨nb10Sample.bytes, fun _ => none, by decide⟩

theorem loadPdbInfo_nb10Sample :
    loadPdbInfo nb10SampleImage .little [⟨some nb10Sample.bytes, some 7, some 0⟩] =
      some (nb10Sample.info 7) :=
  @loadPdbInfo_record nb10SampleImage nb10Sample 0 (by decide) (List.prefix_refl _) []
    (fun _ h => nomatch h) [] 7 []

/-! ## The GUID text -/

def hexDigits : Bytes := ascii "0123456789abcdef"

def upperHexDigits : Bytes := ascii "0123456789ABCDEF"

def GuidText (dashes : Nat) (g : Bytes) : Prop :=
  (∀ c ∈ g, c ∈ upperHexDigits ∨ c = 0x2D) ∧ g.count 0x2D = dashes

theorem mem_toDigitsCore {fuel n : Nat} {ds : List Char} {c : Char}
    (h : c ∈ Nat.toDigitsCore 16 fuel n ds) : c ∈ ds ∨ ∃ d < 16, c = Nat.digitChar d := by
  induction fuel generalizing n ds with
  | zero => exact .inl h
  | succ fuel ih =>
    have digit : ∃ d < 16, Nat.digitChar (n % 16) = Nat.digitChar d := ⟨n % 16, Nat.mod_lt _ (by decide), rfl⟩
    simp only [Nat.toDigitsCore] at h
    split_ifs at h
    · rcases List.mem_cons.mp h with rfl | h
      · exact .inr digit
      · exact .inl h
    · rcases ih h with h | h
      · rcases List.mem_cons.mp h with rfl | h
        · exact .inr digit
        · exact .inl h
      · exact .inr h

theorem hexText_subset (n : Nat) : hexText n ⊆ hexDigits := by
  intro c hc
  obtain ⟨ch, hch, rfl⟩ := List.mem_map.mp hc
  rcases mem_toDigitsCore hch with h | ⟨d, hd, rfl⟩
  · simp at h
  · have digits : ∀ d < 16, (Nat.digitChar d).toUInt8 ∈ hexDigits := by decide
    exact digits d hd

theorem toUpper_hexText_subset (n : Nat) : toUpper (hexText n) ⊆ upperHexDigits := by
  rw [show upperHexDigits = toUpper hexDigits by decide]
  exact List.map_subset _ (hexText_subset n)

theorem guidText_hex (n : Nat) : GuidText 0 (toUpper (hexText n)) := by
  refine ⟨fun c hc => .inl (toUpper_hexText_subset n hc), List.count_eq_zero.mpr fun hc => ?_⟩
  exact absurd (toUpper_hexText_subset n hc) (by decide)

theorem toUpper_append (s t : Bytes) : toUpper (s ++ t) = toUpper s ++ toUpper t :=
  List.map_append _ _ _

theorem toUpper_dash : toUpper (ascii "-") = [0x2D] := rfl

theorem guidText_dash {k m : Nat} {g h : Bytes} (hg : GuidText k g) (hh : GuidText m h) :
    GuidText (k + 1 + m) (g ++ [0x2D] ++ h) := by
  refine ⟨fun c hc => ?_, ?_⟩
  · simp only [List.mem_append, List.mem_singleton] at hc
    rcases hc with (hc | hc) | hc
    · exact hg.1 c hc
    · exact .inr hc
    · exact hh.1 c hc
  · simp [List.count_append, hg.2, hh.2]
    omega

theorem guidText_rsdsGuidText (res1 res2 res3 res4 res5 : Nat) :
    GuidText 4 (rsdsGuidText res1 res2 res3 res4 res5) := by
  simp only [rsdsGuidText, toUpper_append, toUpper_dash]
  exact guidText_dash (guidText_dash (guidText_dash (guidText_dash (guidText_hex res1)
    (guidText_hex res2)) (guidText_hex res3)) (guidText_hex res4)) (guidText_hex res5)

theorem readPdbRecord_guid {type : Bytes} {ts o : Nat} {g : Bytes}
    (h : (readPdbRecord img e type ts o).guid = some g) :
    GuidText (if type = ascii "RSDS" then 4 else 0) g := by
  dsimp only [readPdbRecord] at h
  by_cases ht : type = ascii "RSDS"
  · rw [if_pos ht]
    rw [if_pos (beq_iff_eq.mpr ht)] at h
    split at h
    · exact Option.some.inj h ▸ guidText_rsdsGuidText ..
    · cases h
  · rw [if_neg ht]
    rw [if_neg (mt beq_iff_eq.mp ht)] at h
    obtain ⟨res1, -, rfl⟩ := Option.map_eq_some'.mp h
    exact guidText_hex res1

theorem loadPdbInfo_guid {entries : List DebugEntry} {info : PdbInfo} {g : Bytes}
    (h : loadPdbInfo img e entries = some info) (hg : info.guid = some g) :
    GuidText (if info.type = ascii "RSDS" then 4 else 0) g := by
  obtain ⟨entry, -, he⟩ := exists_readPdbEntry_of_loadPdbInfo h
  obtain ⟨data, ts, o, rfl⟩ := exists_readPdbRecord he
  exact readPdbRecord_guid hg

theorem loadPdbInfo_guid_nb10Sample :
    GuidText (if (nb10Sample.info 7).type = ascii "RSDS" then 4 else 0) (toUpper (hexText 0x2A)) :=
  @loadPdbInfo_guid nb10SampleImage .little [⟨some nb10Sample.bytes, some 7, some 0⟩] _ _
    (by decide) rfl

end PeFormat
