import Mathlib.Data.List.Sort
import PeFormat.Image

/-!
`getDigestRanges` and `calculateDigest`: the parts of the file that the Authenticode digest
hashes, which should be all of it but the checksum field, the security directory entry and
the security directory. Offsets and sizes are `std::size_t`, so `add64` and `sub64` wrap as
the code's arithmetic does. The shrink step of the loop sets the size of a partly covered
area to its covered part, so an area that touches or overlaps the one before it, or starts
at offset 0, is hashed.
-/
namespace PeFormat

def add64 (a b : Nat) : Nat := (a + b) % 2 ^ 64

/-- `a - b` in `std::size_t`, for `b < 2 ^ 64`. -/
def sub64 (a b : Nat) : Nat := (a + 2 ^ 64 - b) % 2 ^ 64

theorem add64_of_lt {a b : Nat} (h : a + b < 2 ^ 64) : add64 a b = a + b := Nat.mod_eq_of_lt h

theorem sub64_of_le {a b : Nat} (h : b ≤ a) (ha : a < 2 ^ 64) : sub64 a b = a - b := by
  rw [sub64, show a + 2 ^ 64 - b = a - b + 2 ^ 64 by omega, Nat.add_mod_right,
    Nat.mod_eq_of_lt (by omega)]

/-- A part of the file left out of the digest: `std::pair` of file offset and size. -/
structure Area where
  first : Nat
  second : Nat
  deriving DecidableEq, Repr

/-- The comparator of the `std::sort` in `getDigestRanges`, as an order on areas. -/
def OffsetLe (a b : Area) : Prop := a.first ≤ b.first

instance : DecidableRel OffsetLe := fun a b => inferInstanceAs (Decidable (a.first ≤ b.first))
instance : IsTotal Area OffsetLe := ⟨fun a b => Nat.le_total a.first b.first⟩
instance : IsTrans Area OffsetLe := ⟨fun _ _ _ => Nat.le_trans⟩

/-- The values `getDigestRanges` reads from the parser, each a `std::size_t`. -/
structure DigestInputs where
  checksumFileOffset : Nat
  secDirFileOffset : Nat
  secDirOffset : Nat
  secDirSize : Nat
  lt : checksumFileOffset < 2 ^ 64 ∧ secDirFileOffset < 2 ^ 64 ∧ secDirOffset < 2 ^ 64 ∧
    secDirSize < 2 ^ 64

/-- The three areas, in the order the code lists them. -/
def DigestInputs.offsets (inputs : DigestInputs) : List Area :=
  [⟨inputs.checksumFileOffset, 4⟩, ⟨inputs.secDirFileOffset, 8⟩,
    ⟨inputs.secDirOffset, inputs.secDirSize⟩]

/-- `std::sort` of the areas by offset. For ranges this short libstdc++ sorts by insertion,
which keeps areas of equal offset in their order, as `List.insertionSort` does. -/
def sortByOffset (offsets : List Area) : List Area := offsets.insertionSort OffsetLe

/-- The loop state: the ranges so far, each a file offset and a size, and `lastOffset`. -/
structure DigestState where
  result : List (Nat × Nat)
  lastOffset : Nat
  deriving DecidableEq, Repr

/-- One turn of the loop over the sorted areas, for a file of `size` bytes. -/
def digestStep (size : Nat) (s : DigestState) (offsetSize : Area) : DigestState :=
  let second := if offsetSize.second > size then size else offsetSize.second
  let second :=
    if add64 offsetSize.first second > size then sub64 size offsetSize.first else second
  if add64 offsetSize.first second ≤ s.lastOffset then s
  else
    let offsetSize : Area :=
      if offsetSize.first ≤ s.lastOffset then ⟨s.lastOffset, sub64 s.lastOffset offsetSize.first⟩
      else ⟨offsetSize.first, second⟩
    ⟨s.result ++ [(s.lastOffset, sub64 offsetSize.first s.lastOffset)],
      add64 offsetSize.first offsetSize.second⟩

def getDigestRanges (img : Image) (inputs : DigestInputs) : List (Nat × Nat) :=
  let s := (sortByOffset inputs.offsets).foldl (digestStep img.bytes.length) ⟨[], 0⟩
  if s.lastOffset ≠ img.bytes.length then
    s.result ++ [(s.lastOffset, sub64 img.bytes.length s.lastOffset)]
  else s.result

/-- The bytes `calculateDigest` passes to `HashContext::addData`, range after range; `none`
when a range runs off the file. -/
def digestData (bytes : Bytes) : List (Nat × Nat) → Option Bytes
  | [] => some []
  | (offset, size) :: ranges =>
    if offset + size ≤ bytes.length then
      ((bytes.drop offset).take size ++ ·) <$> digestData bytes ranges
    else none

/-- `calculateDigest`, with `hash` standing for the `HashContext`, which is not in the
sources. -/
def calculateDigest {α : Type} (hash : Bytes → α) (img : Image) (inputs : DigestInputs) :
    Option α :=
  (digestData img.bytes (getDigestRanges img inputs)).map hash

/-! ## What the ranges should be -/

def covered (ranges : List (Nat × Nat)) (i : Nat) : Bool :=
  ranges.any fun r => r.1 ≤ i && i < r.1 + r.2

def inArea (a : Area) (i : Nat) : Bool := a.first ≤ i && i < a.first + a.second

def excluded (inputs : DigestInputs) (i : Nat) : Bool := inputs.offsets.any (inArea · i)

structure ExactComplement (size : Nat) (inputs : DigestInputs) (ranges : List (Nat × Nat)) :
    Prop where
  inside : ∀ r ∈ ranges, r.1 + r.2 ≤ size
  ordered : ranges.Pairwise fun r r' => r.1 + r.2 ≤ r'.1
  covers : ∀ i, covered ranges i = true ↔ i < size ∧ excluded inputs i = false

structure Separated (size : Nat) (areas : List Area) : Prop where
  inside : ∀ a ∈ areas, 0 < a.first ∧ a.first + a.second ≤ size
  apart : areas.Pairwise fun a b => a.first + a.second < b.first ∨ b.first + b.second < a.first

inductive Apart (size : Nat) : Nat → List Area → Prop
  | nil {last : Nat} : last ≤ size → Apart size last []
  | cons {last : Nat} {a : Area} {areas : List Area} : last < a.first →
      a.first + a.second ≤ size → Apart size (a.first + a.second) areas →
      Apart size last (a :: areas)

def gaps : Nat → List Area → List (Nat × Nat)
  | _, [] => []
  | last, a :: areas => (last, a.first - last) :: gaps (a.first + a.second) areas

def gapsEnd : Nat → List Area → Nat
  | last, [] => last
  | _, a :: areas => gapsEnd (a.first + a.second) areas

def complementRanges (size last : Nat) (areas : List Area) : List (Nat × Nat) :=
  gaps last areas ++
    if gapsEnd last areas ≠ size then [(gapsEnd last areas, size - gapsEnd last areas)] else []

/-! ## The loop over areas that lie apart -/

section Apart

variable {size : Nat}

theorem digestStep_apart {s : DigestState} {a : Area} (hsize : size < 2 ^ 64)
    (before : s.lastOffset < a.first) (inside : a.first + a.second ≤ size) :
    digestStep size s a =
      ⟨s.result ++ [(s.lastOffset, a.first - s.lastOffset)], a.first + a.second⟩ := by
  have hend : add64 a.first a.second = a.first + a.second := add64_of_lt (by omega)
  simp only [digestStep, if_neg (show ¬ a.second > size by omega), hend,
    if_neg (show ¬ a.first + a.second > size by omega),
    if_neg (show ¬ a.first + a.second ≤ s.lastOffset by omega),
    if_neg (show ¬ a.first ≤ s.lastOffset by omega), sub64_of_le before.le (by omega)]

theorem Apart.foldl (hsize : size < 2 ^ 64) {areas : List Area} {s : DigestState}
    (h : Apart size s.lastOffset areas) :
    areas.foldl (digestStep size) s =
      ⟨s.result ++ gaps s.lastOffset areas, gapsEnd s.lastOffset areas⟩ := by
  induction areas generalizing s with
  | nil => simp [gaps, gapsEnd]
  | cons a areas ih =>
    cases h with
    | cons before inside rest =>
      rw [List.foldl_cons, digestStep_apart hsize before inside, ih rest]
      simp [gaps, gapsEnd]

theorem Apart.gapsEnd_le {last : Nat} {areas : List Area} (h : Apart size last areas) :
    last ≤ gapsEnd last areas ∧ gapsEnd last areas ≤ size := by
  induction h with
  | nil hle => exact ⟨le_rfl, hle⟩
  | cons before _ _ ih => simp only [gapsEnd]; omega

theorem Apart.lt_first {last : Nat} {areas : List Area} (h : Apart size last areas) :
    ∀ b ∈ areas, last < b.first := by
  induction h with
  | nil => simp
  | cons before _ _ ih =>
    exact List.forall_mem_cons.2 ⟨before, fun b hb => by have := ih b hb; omega⟩

theorem Apart.complement_inside {last : Nat} {areas : List Area} (h : Apart size last areas) :
    ∀ r ∈ complementRanges size last areas, last ≤ r.1 ∧ r.1 + r.2 ≤ size := by
  induction h with
  | nil hle =>
    intro r hr
    simp only [complementRanges, gaps, gapsEnd, List.nil_append] at hr
    split_ifs at hr
    · simp only [List.mem_singleton] at hr; subst hr; omega
    · simp at hr
  | @cons last a areas before inside rest ih =>
    intro r hr
    simp only [complementRanges, gaps, List.cons_append, List.mem_cons] at hr
    rcases hr with rfl | hr
    · omega
    · have := ih r hr; omega

theorem Apart.complement_ordered {last : Nat} {areas : List Area} (h : Apart size last areas) :
    (complementRanges size last areas).Pairwise fun r r' => r.1 + r.2 ≤ r'.1 := by
  induction h with
  | nil => simp only [complementRanges, gaps, gapsEnd]; split_ifs <;> simp
  | @cons last a areas before inside rest ih =>
    simp only [complementRanges, gaps, List.cons_append, List.pairwise_cons]
    exact ⟨fun r hr => by have := rest.complement_inside r hr; omega, ih⟩

theorem Apart.complement_covers {last : Nat} {areas : List Area} (h : Apart size last areas)
    (i : Nat) : covered (complementRanges size last areas) i = true ↔
      last ≤ i ∧ i < size ∧ ∀ a ∈ areas, inArea a i = false := by
  induction h with
  | @nil last hle =>
    simp only [complementRanges, gaps, gapsEnd, List.nil_append]
    split_ifs with hne <;> simp [covered] <;> omega
  | @cons last a areas before inside rest ih =>
    have hrest := rest.gapsEnd_le
    simp only [complementRanges, gaps, gapsEnd, List.cons_append] at ih ⊢
    simp only [covered, List.any_cons, Bool.or_eq_true, Bool.and_eq_true, decide_eq_true_eq] at ih ⊢
    rw [ih, List.forall_mem_cons]
    simp only [inArea, Bool.and_eq_false_iff, decide_eq_false_iff_not, not_le, not_lt]
    constructor
    · rintro (⟨h1, h2⟩ | ⟨h1, h2, hall⟩)
      · refine ⟨h1, by omega, by omega, fun b hb => ?_⟩
        have := rest.lt_first b hb
        omega
      · exact ⟨by omega, h2, by omega, hall⟩
    · rintro ⟨h1, h2, ha, hall⟩
      by_cases hi : i < a.first
      · exact .inl ⟨h1, by omega⟩
      · exact .inr ⟨by omega, h2, hall⟩

theorem apart_of_pairwise {last : Nat} : ∀ {areas : List Area},
    areas.Pairwise (fun a b => a.first + a.second < b.first) →
    (∀ a ∈ areas, last < a.first ∧ a.first + a.second ≤ size) → last ≤ size →
    Apart size last areas
  | [], _, _, hle => .nil hle
  | a :: areas, hp, hin, _ => by
    obtain ⟨hlt, hend⟩ := hin a (List.mem_cons_self _ _)
    rw [List.pairwise_cons] at hp
    exact .cons hlt hend (apart_of_pairwise hp.2
      (fun b hb => ⟨hp.1 b hb, (hin b (List.mem_cons_of_mem _ hb)).2⟩) hend)

theorem Separated.apart_sorted {areas : List Area} (h : Separated size areas) :
    Apart size 0 (sortByOffset areas) := by
  have perm := List.perm_insertionSort OffsetLe areas
  have ordered : (sortByOffset areas).Pairwise fun a b => a.first + a.second < b.first := by
    refine (List.Pairwise.and (List.sorted_insertionSort OffsetLe areas)
      (h.apart.perm perm.symm Or.symm)).imp ?_
    rintro a b ⟨hab, hsep⟩
    simp only [OffsetLe] at hab
    omega
  exact apart_of_pairwise ordered (fun a ha => h.inside a (perm.subset ha)) (Nat.zero_le _)

end Apart

theorem getDigestRanges_exactComplement {img : Image} {inputs : DigestInputs}
    (h : Separated img.bytes.length inputs.offsets) :
    ExactComplement img.bytes.length inputs (getDigestRanges img inputs) := by
  have apart := h.apart_sorted
  have eq : getDigestRanges img inputs =
      complementRanges img.bytes.length 0 (sortByOffset inputs.offsets) := by
    simp only [getDigestRanges, apart.foldl img.bytes_lt (s := ⟨[], 0⟩), complementRanges,
      List.nil_append, sub64_of_le apart.gapsEnd_le.2 img.bytes_lt]
    split_ifs <;> simp
  have mem : ∀ a, a ∈ sortByOffset inputs.offsets ↔ a ∈ inputs.offsets :=
    fun a => (List.perm_insertionSort OffsetLe _).mem_iff
  rw [eq]
  refine ⟨fun r hr => (apart.complement_inside r hr).2, apart.complement_ordered, fun i => ?_⟩
  simp only [apart.complement_covers, excluded, List.any_eq_false, Bool.not_eq_true, mem,
    Nat.zero_le, true_and]

def digestImage : Image := ⟨List.replicate 100 0, fun _ => none, by decide⟩

def usualInputs : DigestInputs := ⟨10, 20, 50, 10, by decide⟩

theorem getDigestRanges_usualInputs :
    Separated digestImage.bytes.length usualInputs.offsets ∧
      ExactComplement digestImage.bytes.length usualInputs (getDigestRanges digestImage usualInputs) :=
  have sep : Separated digestImage.bytes.length usualInputs.offsets := ⟨by decide, by decide⟩
  ⟨sep, getDigestRanges_exactComplement sep⟩

/-! ## The failing input -/

def overlapImage : Image :=
  ⟨List.replicate 512 0, fun _ => none, by rw [List.length_replicate]; decide⟩

def overlapInputs : DigestInputs := ⟨0xD8, 0x118, 0xD9, 8, by decide⟩

theorem getDigestRanges_overlap :
    getDigestRanges overlapImage overlapInputs = [(0, 216), (220, 0), (223, 57), (288, 224)] ∧
      covered (getDigestRanges overlapImage overlapInputs) 0xDF = true ∧
      excluded overlapInputs 0xDF = true := by
  have size : overlapImage.bytes.length = 512 := List.length_replicate 512 0
  simp only [getDigestRanges, size]
  decide

end PeFormat
