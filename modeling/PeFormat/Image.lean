import Mathlib.Data.List.Basic
import Mathlib.Algebra.Group.Nat.Basic

/-!
Byte access to a loaded PE file, as `FileFormat` offers it to `PeFormat`. A read at an
address first converts the address to a file offset with `getOffsetFromAddress`, which
is not in the sources and is a parameter of the image; the bytes are then taken from
consecutive file offsets. A `std::string` is its byte string. Addresses are unbounded
Nat: the 64-bit wrap of `address + k` is not modelled. The loop the parsers run over a table
of records, with a `break` at the first record they cannot read, is here too.
-/
namespace PeFormat

abbrev Bytes := List UInt8

def ascii (s : String) : Bytes := s.toList.map Char.toUInt8

inductive Endianness
  | little
  | big
  deriving DecidableEq, Repr

def leValue : Bytes → Nat
  | [] => 0
  | b :: bs => b.toNat + 256 * leValue bs

/-- `getInverseEndianness`: the other byte order. -/
def Endianness.inverse : Endianness → Endianness
  | .little => .big
  | .big => .little

def bytesValue : Endianness → Bytes → Nat
  | .little, bs => leValue bs
  | .big, bs => leValue bs.reverse

@[simp] theorem toNat_toUInt8 (x : Nat) : x.toUInt8.toNat = x % 256 := by
  simp [Nat.toUInt8, UInt8.toNat, UInt8.ofNat, Fin.ofNat]

def leBytes : Nat → Nat → Bytes
  | 0, _ => []
  | n + 1, v => (v % 256).toUInt8 :: leBytes n (v / 256)

@[simp] theorem leBytes_length (n v : Nat) : (leBytes n v).length = n := by
  induction n generalizing v <;> simp_all [leBytes]

theorem leValue_leBytes (n v : Nat) (h : v < 256 ^ n) : leValue (leBytes n v) = v := by
  induction n generalizing v with
  | zero => simp_all [leBytes, leValue]
  | succ n ih =>
    rw [leBytes, leValue, toNat_toUInt8, Nat.mod_mod,
      ih _ (by rw [Nat.pow_succ] at h; omega)]
    omega

theorem leBytes_add (m n v : Nat) : leBytes (m + n) v = leBytes m v ++ leBytes n (v / 256 ^ m) := by
  induction m generalizing v with
  | zero => simp [leBytes]
  | succ m ih =>
    rw [Nat.add_right_comm, leBytes, ih, leBytes, Nat.div_div_eq_div_mul, ← Nat.pow_succ']
    rfl

theorem leBytes_mod (n v : Nat) : leBytes n (v % 256 ^ n) = leBytes n v := by
  induction n generalizing v with
  | zero => rfl
  | succ n ih =>
    rw [leBytes, leBytes, Nat.pow_succ', Nat.mod_mul_right_div_self, ih, Nat.mod_mul_right_mod]

theorem takeWhile_append_of_nul {xs : Bytes} (ys : Bytes) (hz : (0 : UInt8) ∈ xs) :
    (xs ++ ys).takeWhile (· != 0) = xs.takeWhile (· != 0) := by
  induction xs with
  | nil => simp at hz
  | cons b xs ih =>
    by_cases hb : b = 0
    · simp [hb]
    · have hx : (0 : UInt8) ∈ xs := (List.mem_cons.mp hz).resolve_left (Ne.symm hb)
      simp [List.takeWhile_cons, hb, ih hx]

theorem takeWhile_nulFree {s : Bytes} (rest : Bytes) (hs : (0 : UInt8) ∉ s) :
    (s ++ 0 :: rest).takeWhile (· != 0) = s := by
  have : ∀ c ∈ s, (c != 0) = true := fun c hc => by simpa using ne_of_mem_of_not_mem hc hs
  simp [List.takeWhile_append_of_pos this]

structure Image where
  bytes : Bytes
  offsetFromAddress : Nat → Option Nat
  /-- The length of the loaded file is a `std::size_t`. -/
  bytes_lt : bytes.length < 2 ^ 64

namespace Image

variable (img : Image)

def getLoadedFileLength : Nat := img.bytes.length

def getXBytesOffset (o n : Nat) : Option Bytes :=
  if o + n ≤ img.bytes.length then some ((img.bytes.drop o).take n) else none

def getXByteOffset (o n : Nat) (e : Endianness) : Option Nat :=
  (img.getXBytesOffset o n).map (bytesValue e)

def get2ByteOffset (o : Nat) (e : Endianness) : Option Nat := img.getXByteOffset o 2 e

def get4ByteOffset (o : Nat) (e : Endianness) : Option Nat := img.getXByteOffset o 4 e

def getXBytes (a n : Nat) : Option Bytes :=
  (img.offsetFromAddress a).bind (img.getXBytesOffset · n)

def getXByte (a n : Nat) (e : Endianness) : Option Nat :=
  (img.getXBytes a n).map (bytesValue e)

def get1Byte (a : Nat) : Option Nat := img.getXByte a 1 .little

def get2Byte (a : Nat) (e : Endianness) : Option Nat := img.getXByte a 2 e

def get4Byte (a : Nat) (e : Endianness) : Option Nat := img.getXByte a 4 e

def get8Byte (a : Nat) (e : Endianness) : Option Nat := img.getXByte a 8 e

/-- Modelled from the spec: `FileFormat::getNTBS` is not in the sources. It reads the
NUL-terminated string at the offset, up to the end of the file and, when `maxLength` is
not zero, at most `maxLength` bytes; it fails only when the first byte is outside. -/
def getNTBSOffset (o maxLength : Nat) : Option Bytes :=
  if o < img.bytes.length then
    let s := (img.bytes.drop o).takeWhile (· != 0)
    some (if maxLength = 0 then s else s.take maxLength)
  else none

def getNTBS (a maxLength : Nat) : Option Bytes :=
  (img.offsetFromAddress a).bind (img.getNTBSOffset · maxLength)

def Holds (a o : Nat) (bs : Bytes) : Prop :=
  (∀ k < bs.length, img.offsetFromAddress (a + k) = some (o + k)) ∧ bs <+: img.bytes.drop o

variable {img} {a o k n : Nat} {bs : Bytes}

theorem file_drop_of_prefix (h : bs <+: img.bytes.drop o) (hk : k ≤ bs.length) :
    ∃ rest, img.bytes.drop (o + k) = bs.drop k ++ rest := by
  obtain ⟨rest, hr⟩ := h
  refine ⟨rest, ?_⟩
  rw [← List.drop_drop, ← hr, List.drop_append_of_le_length hk]

theorem getXBytesOffset_of_prefix (h : bs <+: img.bytes.drop o) (hk : k < bs.length)
    (hn : k + n ≤ bs.length) : img.getXBytesOffset (o + k) n = some ((bs.drop k).take n) := by
  obtain ⟨rest, hr⟩ := file_drop_of_prefix h hk.le
  have fits : o + k + n ≤ img.bytes.length := by
    have := congrArg List.length hr
    simp at this
    omega
  simp [getXBytesOffset, fits, hr, List.take_append_of_le_length,
    show n ≤ bs.length - k by omega]

theorem getXByteOffset_of_prefix (e : Endianness) (h : bs <+: img.bytes.drop o)
    (hk : k < bs.length) (hn : k + n ≤ bs.length) :
    img.getXByteOffset (o + k) n e = some (bytesValue e ((bs.drop k).take n)) := by
  simp [getXByteOffset, getXBytesOffset_of_prefix h hk hn]

theorem getNTBSOffset_of_prefix (h : bs <+: img.bytes.drop o) (hz : (0 : UInt8) ∈ bs.drop k) :
    img.getNTBSOffset (o + k) 0 = some ((bs.drop k).takeWhile (· != 0)) := by
  have hk : k < bs.length := by
    have := List.length_pos_of_mem hz
    simp at this
    omega
  obtain ⟨rest, hr⟩ := file_drop_of_prefix h (k := k) hk.le
  have inside : o + k < img.bytes.length := by
    have := congrArg List.length hr
    simp at this
    omega
  simp [getNTBSOffset, inside, hr, takeWhile_append_of_nul rest hz]

theorem Holds.length_le (h : img.Holds a o bs) (hne : bs ≠ []) :
    o + bs.length ≤ img.bytes.length := by
  have := h.2.length_le
  have : 0 < bs.length := List.length_pos.mpr hne
  simp at *
  omega

theorem Holds.append_left {xs ys : Bytes} (h : img.Holds a o (xs ++ ys)) :
    img.Holds a o xs :=
  ⟨fun k hk => h.1 k (by simp; omega), (List.prefix_append xs ys).trans h.2⟩

theorem getXBytes_of_holds (h : img.Holds a o bs) (hk : k < bs.length)
    (hn : k + n ≤ bs.length) : img.getXBytes (a + k) n = some ((bs.drop k).take n) := by
  simp [getXBytes, h.1 k hk, getXBytesOffset_of_prefix h.2 hk hn]

theorem getXByte_of_holds (e : Endianness) (h : img.Holds a o bs) (hk : k < bs.length)
    (hn : k + n ≤ bs.length) :
    img.getXByte (a + k) n e = some (bytesValue e ((bs.drop k).take n)) := by
  simp [getXByte, getXBytes_of_holds h hk hn]

theorem getNTBS_of_holds (h : img.Holds a o bs) (hk : k < bs.length)
    (hz : (0 : UInt8) ∈ bs.drop k) :
    img.getNTBS (a + k) 0 = some ((bs.drop k).takeWhile (· != 0)) := by
  simp [getNTBS, h.1 k hk, getNTBSOffset_of_prefix h.2 hz]

variable {pre xs rest : Bytes} {m : Nat}

theorem getXByte_at (e : Endianness) (h : img.Holds a o (pre ++ (xs ++ rest)))
    (hx : 0 < xs.length) (hm : m ≤ xs.length) :
    img.getXByte (a + pre.length) m e = some (bytesValue e (xs.take m)) := by
  rw [getXByte_of_holds e h (by simp; omega) (by simp; omega)]
  simp [List.take_append_of_le_length hm]

theorem getXBytes_at (h : img.Holds a o (pre ++ (xs ++ rest))) (hx : 0 < xs.length) :
    img.getXBytes (a + pre.length) xs.length = some xs := by
  rw [getXBytes_of_holds h (by simp; omega) (by simp)]
  simp

theorem getNTBS_at (h : img.Holds a o (pre ++ (xs ++ rest))) (hz : (0 : UInt8) ∈ xs) :
    img.getNTBS (a + pre.length) 0 = some (xs.takeWhile (· != 0)) := by
  have hx : 0 < xs.length := List.length_pos_of_mem hz
  rw [getNTBS_of_holds h (by simp; omega) (by simp [hz])]
  simp [takeWhile_append_of_nul rest hz]

end Image

/-! ## Tables of records

The parsers' loops over a table: `for (i = 0; i < n; i++)`, reading record `i`, with a
`break` when the read fails and a `continue` when the record gives nothing. Where the
records are read from the file, the loop keeps what its body makes of the records that lie
wholly in the file: a count the file declares never takes it past the end.
-/

/-- The loop from record `i`, with `n` records left: a failed `read` ends it, and what `step`
makes of a record is kept, nothing when it gives `none`. -/
def tableLoop {β α : Type} (read : Nat → Option β) (step : β → Option α) : Nat → Nat → List α
  | _, 0 => []
  | i, n + 1 =>
    match read i with
    | none => []
    | some r => (step r).toList ++ tableLoop read step (i + 1) n

theorem tableLoop_eq_filterMap {β α : Type} {read : Nat → Option β} (step : β → Option α)
    {rs : List β} : ∀ {i n : Nat}, rs.length ≤ n →
      (∀ j (h : j < rs.length), read (i + j) = some (rs.get ⟨j, h⟩)) →
      (rs.length < n → read (i + rs.length) = none) →
      tableLoop read step i n = rs.filterMap step := by
  induction rs with
  | nil =>
    intro i n _ _ hstop
    cases n with
    | zero => rfl
    | succ n =>
      have stop : read i = none := hstop (Nat.succ_pos n)
      simp [tableLoop, stop]
  | cons r rs ih =>
    intro i n hn hread hstop
    obtain ⟨n, rfl⟩ : ∃ m, n = m + 1 := ⟨n - 1, by simp at hn; omega⟩
    have first : read i = some r := hread 0 (Nat.succ_pos _)
    have rest := @ih (i + 1) n (by simpa using hn)
      (fun j h => by simpa [Nat.add_right_comm, Nat.add_assoc] using hread (j + 1) (by simpa using h))
      (fun h => by simpa [Nat.add_right_comm, Nat.add_assoc] using hstop (by simpa using h))
    simp only [tableLoop, first, rest, List.filterMap_cons]
    cases step r <;> rfl

theorem mem_tableLoop {β α : Type} {read : Nat → Option β} {step : β → Option α} {x : α} :
    ∀ {i n : Nat}, x ∈ tableLoop read step i n →
      ∃ j r, i ≤ j ∧ j < i + n ∧ read j = some r ∧ step r = some x := by
  intro i n
  induction n generalizing i with
  | zero => simp [tableLoop]
  | succ n ih =>
    intro h
    simp only [tableLoop] at h
    split at h
    · simp at h
    · rename_i r hr
      rcases List.mem_append.mp h with h | h
      · exact ⟨i, r, le_rfl, by omega, hr, Option.mem_toList.mp h⟩
      · obtain ⟨j, r', hij, hjn, hj, hs⟩ := ih h
        exact ⟨j, r', by omega, by omega, hj, hs⟩

/-- The records of a table of `n` records of `k` bytes at file offset `base` that lie wholly
in the file, in order. -/
def Image.records (img : Image) (base k n : Nat) : List Bytes :=
  (List.range (min n ((img.bytes.length - base) / k))).map fun i =>
    (img.bytes.drop (base + i * k)).take k

theorem tableLoop_records {β α : Type} (img : Image) {k : Nat} (hk : 0 < k)
    {read : Nat → Option β} {g : Bytes → β} {base : Nat}
    (hread : ∀ i, read i = (img.getXBytesOffset (base + i * k) k).map g)
    (step : β → Option α) (n : Nat) :
    tableLoop read step 0 n = ((img.records base k n).map g).filterMap step := by
  have fits : ∀ i, i < (img.bytes.length - base) / k ↔ base + i * k + k ≤ img.bytes.length :=
    fun i => by rw [Nat.lt_iff_add_one_le, Nat.le_div_iff_mul_le hk, Nat.add_mul, Nat.one_mul]; omega
  apply tableLoop_eq_filterMap step
  · simp only [Image.records, List.length_map, List.length_range]
    exact Nat.min_le_left n _
  · intro j h
    simp only [Image.records, List.length_map, List.length_range, Nat.lt_min] at h
    simp [hread, Image.getXBytesOffset, (fits j).mp h.2, Image.records]
  · intro h
    simp only [Image.records, List.length_map, List.length_range] at h ⊢
    have hq : min n ((img.bytes.length - base) / k) = (img.bytes.length - base) / k := by omega
    rw [hq, hread, Image.getXBytesOffset, if_neg (fun hle => absurd ((fits _).mpr hle) (by omega)),
      Option.map_none']

theorem tableLoop_getXBytesOffset {α : Type} (img : Image) {k : Nat} (hk : 0 < k) (base : Nat)
    (step : Bytes → Option α) (n : Nat) :
    tableLoop (fun i => img.getXBytesOffset (base + i * k) k) step 0 n =
      (img.records base k n).filterMap step := by
  simpa using @tableLoop_records _ _ img k hk (fun i => img.getXBytesOffset (base + i * k) k) id base
    (fun _ => Option.map_id'.symm) step n

theorem length_records_le (img : Image) (base k n : Nat) :
    (img.records base k n).length ≤ min n ((img.bytes.length - base) / k) := by
  simp [Image.records]

end PeFormat
