import PeFormat.Image
import Mathlib.Data.Nat.Bitwise
import Mathlib.Tactic.IntervalCases

/-!
The .NET heaps as `PeFormat` parses them: `parseBlobStream`, `parseStringStream`,
`parseGuidStream` and `parseUserStringStream`. A heap stream keeps its offset and size
and the elements the parser found, each at its offset inside the stream. The two loops
are proved to read back every well-formed heap (ECMA-335 II.24.2.3 and II.24.2.4).
-/
namespace PeFormat

structure BlobStream where
  offset : Nat
  size : Nat
  elements : List (Nat × Bytes)
  deriving DecidableEq, Repr

structure StringStream where
  offset : Nat
  size : Nat
  strings : List (Nat × Bytes)
  deriving DecidableEq, Repr

structure GuidStream where
  offset : Nat
  size : Nat
  guids : Bytes
  deriving DecidableEq, Repr

structure UserStringStream where
  offset : Nat
  size : Nat
  deriving DecidableEq, Repr

structure BlobLength where
  length : Nat
  lengthSize : Nat
  lengthSize_pos : 0 < lengthSize

variable (img : Image)

/- The masks are those of the source after promotion to `std::uint64_t`: `~0xC000` is an
   `int` and sign-extends, `~0xE0000000` is an `unsigned int` and zero-extends. -/
def readBlobLength (a first : Nat) : Option BlobLength :=
  if first &&& 0xC0 = 0x80 then
    (img.get2Byte a .big).map fun length => ⟨length &&& 0xFFFFFFFFFFFF3FFF, 2, by decide⟩
  else if first &&& 0xE0 = 0xC0 then
    (img.get4Byte a .big).map fun length => ⟨length &&& 0x1FFFFFFF, 4, by decide⟩
  else some ⟨first, 1, by decide⟩

/-- The loop of `parseBlobStream` from `inStreamOffset`. A failed read returns, and the
stream keeps the elements added before it. -/
def blobElements (address size inStreamOffset : Nat) : List (Nat × Bytes) :=
  if inStreamOffset < size then
    match img.get1Byte (address + inStreamOffset) with
    | none => []
    | some first =>
      match readBlobLength img (address + inStreamOffset) first with
      | none => []
      | some b =>
        let elementData :=
          if b.length > 0 then img.getXBytes (address + inStreamOffset + b.lengthSize) b.length
          else some []
        match elementData with
        | none => []
        | some data =>
          (inStreamOffset, data) ::
            blobElements address size (inStreamOffset + b.lengthSize + b.length)
  else []
termination_by size - inStreamOffset
decreasing_by have := b.lengthSize_pos; omega

def parseBlobStream (baseAddress offset size : Nat) : BlobStream :=
  ⟨offset, size, blobElements img (baseAddress + offset) size 0⟩

/-- The loop of `parseStringStream` from `currentOffset`; a failed read skips one byte. -/
def heapStrings (address size currentOffset : Nat) : List (Nat × Bytes) :=
  if currentOffset < size then
    match img.getNTBS (address + currentOffset) 0 with
    | none => heapStrings address size (currentOffset + 1)
    | some string =>
      (currentOffset, string) :: heapStrings address size (currentOffset + 1 + string.length)
  else []
termination_by size - currentOffset

/-- The first string of the heap is always empty, so the loop starts at offset 1. -/
def parseStringStream (baseAddress offset size : Nat) : StringStream :=
  ⟨offset, size, heapStrings img (baseAddress + offset) size 1⟩

def parseGuidStream (baseAddress offset size : Nat) : Option GuidStream :=
  (img.getXBytes (baseAddress + offset) size).map (⟨offset, size, ·⟩)

def parseUserStringStream (offset size : Nat) : UserStringStream := ⟨offset, size⟩

/-! ## Well-formed heaps -/

/-- The widths of an ECMA-335 compressed length: `0xxxxxxx`, `10xxxxxx ..`, `110xxxxx ..`. -/
inductive LengthPrefix
  | one
  | two
  | four
  deriving DecidableEq, Repr

namespace LengthPrefix

def size : LengthPrefix → Nat
  | one => 1
  | two => 2
  | four => 4

def bound : LengthPrefix → Nat
  | one => 0x80
  | two => 0x4000
  | four => 0x20000000

def encode : LengthPrefix → Nat → Bytes
  | one, n => [n.toUInt8]
  | two, n => [(0x80 + n / 0x100).toUInt8, n.toUInt8]
  | four, n => [(0xC0 + n / 0x1000000).toUInt8, (n / 0x10000).toUInt8, (n / 0x100).toUInt8,
      n.toUInt8]

def firstByte : LengthPrefix → Nat → Nat
  | one, n => n
  | two, n => 0x80 + n / 0x100
  | four, n => 0xC0 + n / 0x1000000

theorem size_pos (p : LengthPrefix) : 0 < p.size := by
  cases p <;> decide

@[simp] theorem encode_length (p : LengthPrefix) (n : Nat) : (p.encode n).length = p.size := by
  cases p <;> rfl

end LengthPrefix

def blobHeap : List (LengthPrefix × Bytes) → Bytes
  | [] => []
  | (p, b) :: rest => p.encode b.length ++ b ++ blobHeap rest

def blobEntries (o : Nat) : List (LengthPrefix × Bytes) → List (Nat × Bytes)
  | [] => []
  | (p, b) :: rest => (o, b) :: blobEntries (o + p.size + b.length) rest

def stringHeap (ss : List Bytes) : Bytes := ss.flatMap (· ++ [0])

def stringEntries (o : Nat) : List Bytes → List (Nat × Bytes)
  | [] => []
  | s :: rest => (o, s) :: stringEntries (o + s.length + 1) rest

/-! ## Length prefixes -/

theorem two_byte_mask {x : Nat} (h : x < 2 ^ 16) : x &&& 0xFFFFFFFFFFFF3FFF = x % 2 ^ 14 := by
  apply Nat.eq_of_testBit_eq
  intro i
  rw [Nat.testBit_and, Nat.testBit_mod_two_pow]
  by_cases hi : i < 16
  · interval_cases i <;> simp [Nat.testBit, Nat.shiftRight_eq_div_pow]
  · have : x.testBit i = false :=
      Nat.testBit_lt_two_pow (lt_of_lt_of_le h (Nat.pow_le_pow_right (by norm_num) (by omega)))
    simp [this]

theorem four_byte_mask (x : Nat) : x &&& 0x1FFFFFFF = x % 2 ^ 29 :=
  Nat.and_pow_two_sub_one_eq_mod x 29

theorem tag_one {n : Nat} (h : n < 0x80) : ¬n &&& 0xC0 = 0x80 ∧ ¬n &&& 0xE0 = 0xC0 := by
  have := (by decide : ∀ n < 0x80, ¬n &&& 0xC0 = 0x80 ∧ ¬n &&& 0xE0 = 0xC0)
  exact this n h

theorem tag_two {n : Nat} (h : n < 0x40) : (0x80 + n) &&& 0xC0 = 0x80 := by
  have := (by decide : ∀ n < 0x40, (0x80 + n) &&& 0xC0 = 0x80)
  exact this n h

theorem tag_four {n : Nat} (h : n < 0x20) :
    ¬(0xC0 + n) &&& 0xC0 = 0x80 ∧ (0xC0 + n) &&& 0xE0 = 0xC0 := by
  have := (by decide : ∀ n < 0x20, ¬(0xC0 + n) &&& 0xC0 = 0x80 ∧ (0xC0 + n) &&& 0xE0 = 0xC0)
  exact this n h

variable {img} {address o : Nat} {pre rest : Bytes} {p : LengthPrefix} {n : Nat}

theorem get1Byte_encode (h : img.Holds address o (pre ++ (p.encode n ++ rest)))
    (hn : n < p.bound) : img.get1Byte (address + pre.length) = some (p.firstByte n) := by
  cases p <;> simp only [LengthPrefix.bound] at hn <;>
    simp [Image.get1Byte, Image.getXByte_at .little h, LengthPrefix.encode,
      LengthPrefix.firstByte, bytesValue, leValue] <;> omega

theorem readBlobLength_encode (h : img.Holds address o (pre ++ (p.encode n ++ rest)))
    (hn : n < p.bound) :
    readBlobLength img (address + pre.length) (p.firstByte n) = some ⟨n, p.size, p.size_pos⟩ := by
  cases p with
  | one => simp [readBlobLength, LengthPrefix.firstByte, LengthPrefix.size, tag_one hn]
  | two =>
    simp only [LengthPrefix.bound] at hn
    have value : img.get2Byte (address + pre.length) .big = some (0x8000 + n) := by
      simp [Image.get2Byte, Image.getXByte_at .big h, LengthPrefix.encode, bytesValue, leValue]
      omega
    simp [readBlobLength, LengthPrefix.firstByte, tag_two (show n / 0x100 < 0x40 by omega),
      value, two_byte_mask (show 0x8000 + n < 2 ^ 16 by omega), LengthPrefix.size]
    omega
  | four =>
    simp only [LengthPrefix.bound] at hn
    have value : img.get4Byte (address + pre.length) .big = some (0xC0000000 + n) := by
      rw [Image.get4Byte, Image.getXByte_at .big h (by simp [LengthPrefix.size]) (by simp [LengthPrefix.size])]
      simp only [LengthPrefix.encode, List.take, List.reverse_cons, List.reverse_nil,
        List.nil_append, List.cons_append, bytesValue, leValue, toNat_toUInt8, Option.some.injEq]
      omega
    simp [readBlobLength, LengthPrefix.firstByte, tag_four (show n / 0x1000000 < 0x20 by omega),
      value, four_byte_mask, LengthPrefix.size]
    omega

/-! ## The loops read back every well-formed heap -/

theorem blobElements_heap {blobs : List (LengthPrefix × Bytes)}
    (wide : ∀ x ∈ blobs, x.2.length < x.1.bound) (pre : Bytes)
    (h : img.Holds address o (pre ++ blobHeap blobs)) :
    blobElements img address (pre ++ blobHeap blobs).length pre.length =
      blobEntries pre.length blobs := by
  induction blobs generalizing pre with
  | nil => rw [blobElements]; simp [blobHeap, blobEntries]
  | cons x rest ih =>
    obtain ⟨p, b⟩ := x
    have hb : b.length < p.bound := wide (p, b) (by simp)
    have h' : img.Holds address o (pre ++ (p.encode b.length ++ (b ++ blobHeap rest))) := by
      simpa [blobHeap] using h
    have data : (if b.length > 0 then
        img.getXBytes (address + pre.length + p.size) b.length else some []) = some b := by
      split
      · have at_b : img.Holds address o ((pre ++ p.encode b.length) ++ (b ++ blobHeap rest)) := by
          simpa using h'
        simpa [Nat.add_assoc] using Image.getXBytes_at at_b ‹_›
      · simp_all
    have next := ih (fun y hy => wide y (by simp [hy])) (pre ++ p.encode b.length ++ b)
      (by simpa [blobHeap] using h)
    have inside : pre.length < (pre ++ blobHeap ((p, b) :: rest)).length := by
      simp [blobHeap]; have := p.size_pos; omega
    rw [blobElements, if_pos inside, get1Byte_encode h' hb]
    simp only [readBlobLength_encode h' hb, data]
    simp only [List.length_append, LengthPrefix.encode_length, blobHeap] at next ⊢
    simp only [blobEntries, ← next]
    congr 2
    omega

theorem parseBlobStream_heap (baseAddress offset : Nat) (blobs : List (LengthPrefix × Bytes))
    (wide : ∀ x ∈ blobs, x.2.length < x.1.bound)
    (h : img.Holds (baseAddress + offset) o (blobHeap blobs)) :
    (parseBlobStream img baseAddress offset (blobHeap blobs).length).elements =
      blobEntries 0 blobs :=
  blobElements_heap wide [] h

theorem parseBlobStream_two_blobs :
    (∀ x ∈ [(LengthPrefix.one, [7, 8]), (LengthPrefix.two, [9])], x.2.length < x.1.bound) ∧
      Image.Holds ⟨[2, 7, 8, 0x80, 1, 9], some, by decide⟩ (0 + 0) 0
        (blobHeap [(LengthPrefix.one, [7, 8]), (LengthPrefix.two, [9])]) ∧
      (parseBlobStream ⟨[2, 7, 8, 0x80, 1, 9], some, by decide⟩ 0 0 6).elements = [(0, [7, 8]), (3, [9])] :=
  ⟨by decide, ⟨fun _ _ => rfl, List.prefix_refl _⟩,
    parseBlobStream_heap 0 0 [(LengthPrefix.one, [7, 8]), (LengthPrefix.two, [9])] (by decide)
      ⟨fun _ _ => rfl, List.prefix_refl _⟩⟩

theorem heapStrings_heap {ss : List Bytes} (nulFree : ∀ s ∈ ss, (0 : UInt8) ∉ s) (pre : Bytes)
    (h : img.Holds address o (pre ++ stringHeap ss)) :
    heapStrings img address (pre ++ stringHeap ss).length pre.length =
      stringEntries pre.length ss := by
  induction ss generalizing pre with
  | nil => rw [heapStrings]; simp [stringHeap, stringEntries]
  | cons s rest ih =>
    have h' : img.Holds address o (pre ++ ((s ++ [0]) ++ stringHeap rest)) := by
      simpa [stringHeap] using h
    have read := takeWhile_nulFree [] (nulFree s (by simp))
    have next := ih (fun t ht => nulFree t (by simp [ht])) (pre ++ (s ++ [0]))
      (by simpa [stringHeap] using h)
    have inside : pre.length < (pre ++ stringHeap (s :: rest)).length := by
      simp [stringHeap]
    have step : pre.length + 1 + s.length = (pre ++ (s ++ [0])).length := by
      simp; omega
    have size : (pre ++ stringHeap (s :: rest)).length =
        (pre ++ (s ++ [0]) ++ stringHeap rest).length := by
      simp [stringHeap]
    rw [heapStrings, if_pos inside, Image.getNTBS_at h' (by simp), read]
    dsimp only
    rw [step, size, next]
    simp [stringEntries, Nat.add_assoc]

theorem parseStringStream_heap (baseAddress offset : Nat) (ss : List Bytes)
    (nulFree : ∀ s ∈ ss, (0 : UInt8) ∉ s)
    (h : img.Holds (baseAddress + offset) o (0 :: stringHeap ss)) :
    (parseStringStream img baseAddress offset (0 :: stringHeap ss).length).strings =
      stringEntries 1 ss :=
  heapStrings_heap nulFree [0] h

theorem parseStringStream_two_strings :
    (∀ s ∈ [[0x61], []], (0 : UInt8) ∉ s) ∧
      Image.Holds ⟨[0, 0x61, 0, 0], some, by decide⟩ (0 + 0) 0 (0 :: stringHeap [[0x61], []]) ∧
      (parseStringStream ⟨[0, 0x61, 0, 0], some, by decide⟩ 0 0 4).strings = [(1, [0x61]), (3, [])] :=
  ⟨by decide, ⟨fun _ _ => rfl, List.prefix_refl _⟩,
    parseStringStream_heap 0 0 [[0x61], []] (by decide) ⟨fun _ _ => rfl, List.prefix_refl _⟩⟩

end PeFormat
