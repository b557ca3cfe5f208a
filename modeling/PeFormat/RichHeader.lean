import Mathlib.Data.List.OfFn
import Mathlib.Data.List.Nodup
import PeFormat.Image

/-!
`getRichHeaderOffset`: where `loadRichHeader` looks for the Rich header. The bytes between
the MZ header and the PE signature are searched for a known DOS-stub message; the header is
taken to start after the NUL that ends the message and the NULs that pad it, and at the
standard offset 0x80 when there is no message or no NUL after it. The size of the MZ header
(`getMzHeaderSize`, the size of `mzHeader`, which is not in the sources) is a parameter; the
sum of it and an offset into the bytes after it is not taken modulo 2^64.
-/
namespace PeFormat

def standardRichHeaderOffset : Nat := 0x80

/-- The DOS-stub messages of `findDosStub`, in the order it tries them. -/
def stubDatabase : List Bytes :=
  [ascii "This program cannot be run in DOS mode", ascii "This program must be run under Win32",
    ascii "This program requires Microsoft Windows", ascii "Win32 only"]

/-- Modelled from the C++ standard: `std::string::find(str, pos)` is the least `xpos ≥ pos`
at which `str` occurs in `s`; `none` is `npos`. A character is found as the string of it. -/
def stringFind (s str : Bytes) (pos : Nat) : Option Nat :=
  ((List.range (s.length + 1 - pos)).map (pos + ·)).find? fun xpos => str.isPrefixOf (s.drop xpos)

/-- The offset of the first message of `stubDatabase` that occurs in `plainFile`. -/
def findDosStub (plainFile : Bytes) : Option Nat :=
  stubDatabase.findSome? fun item => stringFind plainFile item 0

/-- The loop of `getRichHeaderOffset` with counter `i` and `fuel` turns left: `richOffset`
once `find('\0', prev)` fails or, after the first turn, finds a NUL past `prev`; `none` when
the fuel runs out. -/
def richOffsetLoop (plainFile : Bytes) : Nat → Nat → Nat → Nat → Option Nat
  | 0, _, _, _ => none
  | fuel + 1, i, prev, richOffset =>
    match stringFind plainFile [0] prev with
    | none => some richOffset
    | some next =>
      if i ≠ 0 then
        if next ≠ prev then some richOffset
        else richOffsetLoop plainFile fuel (i + 1) (prev + 1) (prev + 1)
      else richOffsetLoop plainFile fuel (i + 1) (next + 1) (next + 1)

/-- The loop turns at most once per byte of `plainFile` and once more. -/
def getRichHeaderOffset (mzHeaderSize : Nat) (plainFile : Bytes) : Nat :=
  let richOffset :=
    match findDosStub plainFile with
    | some prev => (richOffsetLoop plainFile (plainFile.length + 1) 0 prev 0).getD 0
    | none => 0
  if richOffset ≠ 0 then richOffset + mzHeaderSize else standardRichHeaderOffset

/-! ## The offset the search stops at -/

def FirstNulFrom (s : Bytes) (p n0 : Nat) : Prop :=
  p ≤ n0 ∧ s[n0]? = some 0 ∧ ∀ k < n0, p ≤ k → s[k]? ≠ some 0

instance (s : Bytes) (p n0 : Nat) : Decidable (FirstNulFrom s p n0) :=
  inferInstanceAs (Decidable (_ ∧ _ ∧ _))

def NulRunEnd (s : Bytes) (n0 r : Nat) : Prop :=
  n0 < r ∧ r ≤ s.length ∧ s[r]? ≠ some 0 ∧ ∀ k < r, n0 < k → s[k]? = some 0

instance (s : Bytes) (n0 r : Nat) : Decidable (NulRunEnd s n0 r) :=
  inferInstanceAs (Decidable (_ ∧ _ ∧ _ ∧ _))

theorem nul_isPrefixOf_drop (s : Bytes) (k : Nat) :
    [(0 : UInt8)].isPrefixOf (s.drop k) = decide (s[k]? = some 0) := by
  rw [← List.head?_drop]
  cases s.drop k with
  | nil => rfl
  | cons b _ =>
    rw [List.isPrefixOf, List.isPrefixOf_nil_left, Bool.and_true, Bool.eq_iff_iff, beq_iff_eq,
      decide_eq_true_iff, List.head?_cons, Option.some.injEq]
    exact eq_comm

theorem stringFind_nul_eq_some {s : Bytes} {pos n : Nat} :
    stringFind s [0] pos = some n ↔ FirstNulFrom s pos n := by
  simp only [stringFind, List.find?_eq_some_iff_getElem, List.getElem_map, List.getElem_range,
    List.length_map, List.length_range, nul_isPrefixOf_drop, decide_eq_true_eq, FirstNulFrom]
  constructor
  · rintro ⟨hn, i, hi, rfl, hmin⟩
    refine ⟨by omega, hn, fun k hk hpk => ?_⟩
    simpa [Nat.add_sub_cancel' hpk] using hmin (k - pos) (by omega)
  · rintro ⟨hp, hn, hmin⟩
    have := (List.getElem?_eq_some_iff.mp hn).1
    refine ⟨hn, n - pos, by omega, by omega, fun j hj => ?_⟩
    simpa using hmin (pos + j) (by omega) (by omega)

/-! ## The loop, branch by branch -/

variable {s : Bytes}

theorem richOffsetLoop_not_found {fuel i prev richOffset : Nat}
    (h : stringFind s [0] prev = none) :
    richOffsetLoop s (fuel + 1) i prev richOffset = some richOffset := by
  simp [richOffsetLoop, h]

theorem richOffsetLoop_first {fuel prev richOffset next : Nat}
    (h : stringFind s [0] prev = some next) :
    richOffsetLoop s (fuel + 1) 0 prev richOffset = richOffsetLoop s fuel 1 (next + 1) (next + 1) := by
  simp [richOffsetLoop, h]

theorem richOffsetLoop_later {fuel i prev richOffset next : Nat} (hi : i ≠ 0)
    (h : stringFind s [0] prev = some next) :
    richOffsetLoop s (fuel + 1) i prev richOffset =
      if next ≠ prev then some richOffset else richOffsetLoop s fuel (i + 1) (prev + 1) (prev + 1) := by
  rw [richOffsetLoop, h]
  exact if_pos hi

theorem richOffsetLoop_run {r : Nat} (hr : r ≤ s.length) (hend : s[r]? ≠ some 0) :
    ∀ m prev fuel i, prev + m = r → m < fuel → i ≠ 0 →
      (∀ k < r, prev ≤ k → s[k]? = some 0) → richOffsetLoop s fuel i prev prev = some r := by
  intro m
  induction m with
  | zero =>
    intro prev fuel i hm hfuel hi _
    obtain ⟨fuel, rfl⟩ : ∃ f, fuel = f + 1 := ⟨fuel - 1, by omega⟩
    obtain rfl : prev = r := hm
    cases hfind : stringFind s [0] prev with
    | none => exact richOffsetLoop_not_found hfind
    | some next =>
      have hnext : next ≠ prev := by
        rintro rfl
        exact hend (stringFind_nul_eq_some.mp hfind).2.1
      rw [richOffsetLoop_later hi hfind, if_pos hnext]
  | succ m ih =>
    intro prev fuel i hm hfuel hi hnuls
    obtain ⟨fuel, rfl⟩ : ∃ f, fuel = f + 1 := ⟨fuel - 1, by omega⟩
    have hfind : stringFind s [0] prev = some prev :=
      stringFind_nul_eq_some.mpr ⟨le_rfl, hnuls prev (by omega) le_rfl, fun k hk hpk => by omega⟩
    rw [richOffsetLoop_later hi hfind, if_neg (not_not.mpr rfl)]
    exact ih (prev + 1) fuel (i + 1) (by omega) (by omega) (by omega)
      fun k hk hpk => hnuls k hk (by omega)

theorem exists_nulRunEnd {n0 : Nat} :
    ∀ d k, s.length - k = d → n0 < k → k ≤ s.length → (∀ j < k, n0 < j → s[j]? = some 0) →
      ∃ r, NulRunEnd s n0 r := by
  intro d
  induction d with
  | zero =>
    intro k hd hk hlen hnuls
    exact ⟨k, hk, hlen, by simp [List.getElem?_eq_none (by omega : s.length ≤ k)], hnuls⟩
  | succ d ih =>
    intro k hd hk hlen hnuls
    by_cases hz : s[k]? = some 0
    · have hk' : k < s.length := (List.getElem?_eq_some_iff.mp hz).1
      exact ih (k + 1) (by omega) (by omega) hk' fun j hj hnj =>
        if hjk : j < k then hnuls j hjk hnj else by rw [show j = k by omega]; exact hz
    · exact ⟨k, hk, hlen, hz, hnuls⟩

/-! ## The offset -/

variable {mzHeaderSize p : Nat}

theorem getRichHeaderOffset_no_stub (h : findDosStub s = none) :
    getRichHeaderOffset mzHeaderSize s = standardRichHeaderOffset := by
  simp [getRichHeaderOffset, h]

theorem getRichHeaderOffset_no_nul (hp : findDosStub s = some p) (h : stringFind s [0] p = none) :
    getRichHeaderOffset mzHeaderSize s = standardRichHeaderOffset := by
  simp [getRichHeaderOffset, hp, richOffsetLoop_not_found h]

theorem stringFind_nul_of_not_mem (h : (0 : UInt8) ∉ s.drop p) : stringFind s [0] p = none := by
  cases hn : stringFind s [0] p with
  | none => rfl
  | some n =>
    obtain ⟨hpn, hn, -⟩ := stringFind_nul_eq_some.mp hn
    exact absurd (List.mem_iff_getElem?.mpr ⟨n - p, by
      rw [List.getElem?_drop, Nat.add_sub_cancel' hpn, hn]⟩) h

theorem getRichHeaderOffset_nulRun {n0 r : Nat} (hp : findDosStub s = some p)
    (hn0 : FirstNulFrom s p n0) (hr : NulRunEnd s n0 r) :
    getRichHeaderOffset mzHeaderSize s = r + mzHeaderSize := by
  obtain ⟨hn0r, hle, hend, hnuls⟩ := hr
  have hlen : n0 < s.length := (List.getElem?_eq_some_iff.mp hn0.2.1).1
  have hloop : richOffsetLoop s (s.length + 1) 0 p 0 = some r := by
    rw [richOffsetLoop_first (stringFind_nul_eq_some.mpr hn0)]
    exact richOffsetLoop_run hle hend (r - (n0 + 1)) (n0 + 1) s.length 1 (by omega) (by omega)
      one_ne_zero fun k hk hpk => hnuls k hk (by omega)
  simp [getRichHeaderOffset, hp, hloop, show r ≠ 0 by omega]

theorem getRichHeaderOffset_eq (mzHeaderSize : Nat) (s : Bytes) :
    (findDosStub s = none → getRichHeaderOffset mzHeaderSize s = 0x80) ∧
    (∀ p, findDosStub s = some p → (0 : UInt8) ∉ s.drop p →
      getRichHeaderOffset mzHeaderSize s = 0x80) ∧
    (∀ p n0 r, findDosStub s = some p → FirstNulFrom s p n0 → NulRunEnd s n0 r →
      getRichHeaderOffset mzHeaderSize s = mzHeaderSize + r) :=
  ⟨getRichHeaderOffset_no_stub,
    fun _ hp h => getRichHeaderOffset_no_nul hp (stringFind_nul_of_not_mem h),
    fun _ _ _ hp hn0 hr => (getRichHeaderOffset_nulRun hp hn0 hr).trans (Nat.add_comm _ _)⟩

def win32OnlyStub : Bytes := [0x0E, 0x1F] ++ ascii "Win32 only$" ++ [0, 0] ++ ascii "DanS"

theorem getRichHeaderOffset_win32OnlyStub :
    findDosStub win32OnlyStub = some 2 ∧ FirstNulFrom win32OnlyStub 2 13 ∧
      NulRunEnd win32OnlyStub 13 15 ∧ getRichHeaderOffset 0x40 win32OnlyStub = 0x40 + 15 :=
  have hp : findDosStub win32OnlyStub = some 2 := by decide
  have hn0 : FirstNulFrom win32OnlyStub 2 13 := by decide
  have hr : NulRunEnd win32OnlyStub 13 15 := by decide
  ⟨hp, hn0, hr, (getRichHeaderOffset_eq 0x40 win32OnlyStub).2.2 2 13 15 hp hn0 hr⟩

/-- Padding that runs to the end of the bytes gives their length. -/
example : getRichHeaderOffset 0x40 (ascii "Win32 only" ++ [0, 0]) = 0x40 + 12 := by decide

theorem getRichHeaderOffset_bounds (mzHeaderSize : Nat) (s : Bytes) :
    getRichHeaderOffset mzHeaderSize s = 0x80 ∨
      mzHeaderSize < getRichHeaderOffset mzHeaderSize s ∧
        getRichHeaderOffset mzHeaderSize s ≤ mzHeaderSize + s.length := by
  cases hp : findDosStub s with
  | none => exact .inl (getRichHeaderOffset_no_stub hp)
  | some p =>
    cases hn : stringFind s [0] p with
    | none => exact .inl (getRichHeaderOffset_no_nul hp hn)
    | some n0 =>
      have hn0 := stringFind_nul_eq_some.mp hn
      have hlen : n0 < s.length := (List.getElem?_eq_some_iff.mp hn0.2.1).1
      obtain ⟨r, hr⟩ : ∃ r, NulRunEnd s n0 r :=
        exists_nulRunEnd _ (n0 + 1) rfl (by omega) hlen fun j hj hnj => by omega
      have := hr.1
      have := hr.2.1
      rw [getRichHeaderOffset_nulRun hp hn0 hr]
      exact .inr ⟨by omega, by omega⟩

/-! ## Where the Rich header is read -/

/-- What `readRichHeader` leaves in `file->richHeader()`: whether its signature checks out
and whether its structure is valid. `FileInformation::readRichHeader` is not in the sources:
it is a parameter, a function of the offset and the size it reads. -/
structure RichHeaderRead where
  isHeaderValid : Bool
  isStructureValid : Bool

/-- The state of `loadRichHeader` between its reads: the current offset, whether the
standard offset was tried, the last read, the offsets whose structure was valid, and the
offsets read so far. -/
structure RichHeaderSearch where
  offset : Nat
  standardOffset : Bool
  header : RichHeaderRead
  validStructOffsets : List Nat
  probes : List Nat

def RichHeaderSearch.start (offset : Nat) : RichHeaderSearch :=
  ⟨offset, offset == standardRichHeaderOffset, ⟨false, false⟩, [], []⟩

/-- `readRichHeader(offset, getPeHeaderOffset() - offset)`, keeping `offset` when the
structure it reads is valid. -/
def RichHeaderSearch.read (readRichHeader : Nat → Nat → RichHeaderRead) (peHeaderOffset : Nat)
    (s : RichHeaderSearch) (offset : Nat) : RichHeaderSearch :=
  let header := readRichHeader offset (peHeaderOffset - offset)
  { s with
    offset := offset
    header := header
    validStructOffsets :=
      if header.isStructureValid then s.validStructOffsets ++ [offset] else s.validStructOffsets
    probes := s.probes ++ [offset] }

/-- The loop that picks `maxOffset` among the offsets with a valid structure: the largest,
among those that are neither the standard offset nor the size of the MZ header when there
are any. -/
def chooseRichHeaderOffset (mzHeaderSize : Nat) (validStructOffsets : List Nat) : Nat :=
  let nonStandardOffset := validStructOffsets.any fun off =>
    off != standardRichHeaderOffset && off != mzHeaderSize
  validStructOffsets.foldl (fun maxOffset off =>
    if off > maxOffset && (!nonStandardOffset ||
        (off != standardRichHeaderOffset && off != mzHeaderSize)) then off
    else maxOffset) 0

/-- The first read, at the offset `getRichHeaderOffset` gives. -/
def RichHeaderSearch.first (readRichHeader : Nat → Nat → RichHeaderRead) (peHeaderOffset offset : Nat) :
    RichHeaderSearch :=
  (RichHeaderSearch.start offset).read readRichHeader peHeaderOffset offset

/-- "try space immediately after DOS (MZ) header" -/
def RichHeaderSearch.tryMzHeaderEnd (readRichHeader : Nat → Nat → RichHeaderRead)
    (mzHeaderSize peHeaderOffset : Nat) (s : RichHeaderSearch) : RichHeaderSearch :=
  if !s.header.isHeaderValid && s.offset > mzHeaderSize && peHeaderOffset > mzHeaderSize then
    let s := s.read readRichHeader peHeaderOffset mzHeaderSize
    { s with standardOffset := s.standardOffset || mzHeaderSize == standardRichHeaderOffset }
  else s

/-- "try standard offset of rich header" -/
def RichHeaderSearch.tryStandard (readRichHeader : Nat → Nat → RichHeaderRead)
    (peHeaderOffset : Nat) (s : RichHeaderSearch) : RichHeaderSearch :=
  if !s.header.isHeaderValid && !s.standardOffset && standardRichHeaderOffset < peHeaderOffset then
    s.read readRichHeader peHeaderOffset standardRichHeaderOffset
  else s

/-- What `loadRichHeader` does: the offsets it reads while searching, the offset it reads the
items again at when no read gave a valid header, and the offset it records, if any. -/
structure RichHeaderLoad where
  probes : List Nat
  reread : Option Nat
  offset : Option Nat

/-- The end of `loadRichHeader` once the search is over. -/
def RichHeaderSearch.finish (mzHeaderSize : Nat) (s : RichHeaderSearch) : RichHeaderLoad :=
  if !s.header.isHeaderValid && s.validStructOffsets.isEmpty then ⟨s.probes, none, none⟩
  else if s.header.isHeaderValid then ⟨s.probes, none, some s.offset⟩
  else
    let maxOffset := chooseRichHeaderOffset mzHeaderSize s.validStructOffsets
    ⟨s.probes, some maxOffset, some maxOffset⟩

/-- `bytesToString`, which is not in the sources, copies the bytes from the end of the MZ
header to the PE signature. -/
def loadRichHeader (readRichHeader : Nat → Nat → RichHeaderRead) (bytes : Bytes)
    (mzHeaderSize peHeaderOffset : Nat) : RichHeaderLoad :=
  if peHeaderOffset ≤ mzHeaderSize then ⟨[], none, none⟩
  else
    let plainText := (bytes.drop mzHeaderSize).take (peHeaderOffset - mzHeaderSize)
    let offset := getRichHeaderOffset mzHeaderSize plainText
    if offset ≥ peHeaderOffset then ⟨[], none, none⟩
    else
      (((RichHeaderSearch.first readRichHeader peHeaderOffset offset).tryMzHeaderEnd
        readRichHeader mzHeaderSize peHeaderOffset).tryStandard readRichHeader peHeaderOffset).finish
        mzHeaderSize

/-! ## The offset chosen among the valid structures -/

def preferredOffsets (mzHeaderSize : Nat) (offsets : List Nat) : List Nat :=
  let preferred := fun off => off != standardRichHeaderOffset && off != mzHeaderSize
  if offsets.any preferred then offsets.filter preferred else offsets

theorem foldl_larger_eq (q : Nat → Bool) : ∀ (xs : List Nat) (m : Nat),
    xs.foldl (fun m off => if off > m && q off then off else m) m = (xs.filter q).foldl max m
  | [], _ => rfl
  | x :: xs, m => by
    rw [List.foldl_cons, foldl_larger_eq q xs, List.filter_cons]
    by_cases hq : q x = true
    · by_cases hx : x > m
      · simp [hq, hx, Nat.max_eq_right (Nat.le_of_lt hx)]
      · simp [hq, hx, Nat.max_eq_left (Nat.le_of_not_lt hx)]
    · simp [hq]

theorem foldl_max_spec : ∀ (xs : List Nat) (m : Nat),
    m ≤ xs.foldl max m ∧ (∀ x ∈ xs, x ≤ xs.foldl max m) ∧ (xs.foldl max m = m ∨ xs.foldl max m ∈ xs)
  | [], _ => by simp
  | x :: xs, m => by
    obtain ⟨hm, hle, hmem⟩ := foldl_max_spec xs (max m x)
    refine ⟨le_trans (le_max_left _ _) hm, fun y hy => ?_, ?_⟩
    · rcases List.mem_cons.mp hy with rfl | hy
      · exact le_trans (le_max_right _ _) hm
      · exact hle y hy
    · rw [List.foldl_cons]
      rcases hmem with h | h
      · rcases Nat.le_total m x with hmx | hxm
        · right
          rw [h, max_eq_right hmx]
          exact List.mem_cons_self _ _
        · left
          rw [h, max_eq_left hxm]
      · exact .inr (List.mem_cons_of_mem _ h)

theorem chooseRichHeaderOffset_eq (mzHeaderSize : Nat) (offsets : List Nat) :
    chooseRichHeaderOffset mzHeaderSize offsets = (preferredOffsets mzHeaderSize offsets).foldl max 0 := by
  unfold chooseRichHeaderOffset preferredOffsets
  dsimp only
  split <;> rename_i h <;> simp only [h, Bool.not_true, Bool.not_false, Bool.false_or,
    Bool.true_or] <;> rw [foldl_larger_eq]
  rw [List.filter_true]

theorem chooseRichHeaderOffset_spec {mzHeaderSize : Nat} {offsets : List Nat} (hne : offsets ≠ []) :
    chooseRichHeaderOffset mzHeaderSize offsets ∈ preferredOffsets mzHeaderSize offsets ∧
      ∀ off ∈ preferredOffsets mzHeaderSize offsets, off ≤ chooseRichHeaderOffset mzHeaderSize offsets := by
  have hpne : preferredOffsets mzHeaderSize offsets ≠ [] := by
    unfold preferredOffsets
    dsimp only
    split <;> rename_i h
    · obtain ⟨x, hx, hq⟩ := List.any_eq_true.mp h
      exact List.ne_nil_of_mem (List.mem_filter.mpr ⟨hx, hq⟩)
    · exact hne
  rw [chooseRichHeaderOffset_eq]
  obtain ⟨-, hle, hmem⟩ := foldl_max_spec (preferredOffsets mzHeaderSize offsets) 0
  refine ⟨?_, hle⟩
  rcases hmem with h0 | hmem
  · obtain ⟨x, hx⟩ := List.exists_mem_of_ne_nil _ hpne
    have hx0 : x = 0 := by have := hle x hx; omega
    rw [h0]
    exact hx0 ▸ hx
  · exact hmem

theorem preferredOffsets_subset (mzHeaderSize : Nat) (offsets : List Nat) :
    preferredOffsets mzHeaderSize offsets ⊆ offsets := by
  unfold preferredOffsets
  dsimp only
  split
  · exact fun x hx => (List.mem_filter.mp hx).1
  · exact List.Subset.refl _

/-! ## The search reads before the PE signature, each offset once -/

section Search

variable (readRichHeader : Nat → Nat → RichHeaderRead) (peHeaderOffset : Nat)

structure RichHeaderSearch.Inv (s : RichHeaderSearch) : Prop where
  probes_lt : ∀ p ∈ s.probes, p < peHeaderOffset
  nodup : s.probes.Nodup
  offset_mem : s.offset ∈ s.probes
  header_eq : s.header = readRichHeader s.offset (peHeaderOffset - s.offset)
  valid_eq : s.validStructOffsets =
    s.probes.filter fun p => (readRichHeader p (peHeaderOffset - p)).isStructureValid
  only_current : ∀ p ∈ s.probes,
    (readRichHeader p (peHeaderOffset - p)).isHeaderValid = true → p = s.offset

def RichHeaderSearch.StandardKnown (s : RichHeaderSearch) : Prop :=
  standardRichHeaderOffset ∈ s.probes → s.standardOffset = true

variable {readRichHeader peHeaderOffset} {s : RichHeaderSearch}

theorem RichHeaderSearch.first_inv {offset : Nat} (h : offset < peHeaderOffset) :
    (first readRichHeader peHeaderOffset offset).Inv readRichHeader peHeaderOffset where
  probes_lt := by simp [first, start, read, h]
  nodup := List.nodup_singleton _
  offset_mem := List.mem_singleton_self _
  header_eq := rfl
  valid_eq := by
    simp only [first, start, read, List.nil_append, List.filter_singleton]
    split <;> simp_all
  only_current := by simp [first, start, read]

theorem RichHeaderSearch.first_standardKnown (offset : Nat) :
    (first readRichHeader peHeaderOffset offset).StandardKnown := by
  intro h
  simp only [first, start, read, List.nil_append, List.mem_singleton] at h
  simp [first, start, read, h]

theorem RichHeaderSearch.Inv.read (hs : s.Inv readRichHeader peHeaderOffset)
    (hv : s.header.isHeaderValid = false) {offset : Nat} (hlt : offset < peHeaderOffset)
    (hnew : offset ∉ s.probes) :
    (s.read readRichHeader peHeaderOffset offset).Inv readRichHeader peHeaderOffset where
  probes_lt := by
    intro p hp
    rcases List.mem_append.mp hp with hp | hp
    · exact hs.probes_lt p hp
    · rw [List.mem_singleton.mp hp]
      exact hlt
  nodup := List.nodup_append.mpr ⟨hs.nodup, List.nodup_singleton _,
    List.disjoint_singleton.mpr hnew⟩
  offset_mem := List.mem_append_right _ (List.mem_singleton_self _)
  header_eq := rfl
  valid_eq := by
    simp only [RichHeaderSearch.read, List.filter_append, ← hs.valid_eq, List.filter_singleton]
    split <;> simp_all
  only_current := by
    intro p hp hpv
    rcases List.mem_append.mp hp with hp | hp
    · have hcur := hs.only_current p hp hpv
      rw [hs.header_eq, ← hcur, hpv] at hv
      exact absurd hv Bool.noConfusion
    · exact List.mem_singleton.mp hp

theorem RichHeaderSearch.Inv.withStandardOffset (hs : s.Inv readRichHeader peHeaderOffset)
    (b : Bool) : { s with standardOffset := b }.Inv readRichHeader peHeaderOffset :=
  ⟨hs.probes_lt, hs.nodup, hs.offset_mem, hs.header_eq, hs.valid_eq, hs.only_current⟩

theorem RichHeaderSearch.Inv.tryMzHeaderEnd {mzHeaderSize : Nat}
    (hs : s.Inv readRichHeader peHeaderOffset) (hone : s.probes = [s.offset])
    (hknown : s.StandardKnown) :
    (s.tryMzHeaderEnd readRichHeader mzHeaderSize peHeaderOffset).Inv readRichHeader
        peHeaderOffset ∧
      (s.tryMzHeaderEnd readRichHeader mzHeaderSize peHeaderOffset).StandardKnown := by
  unfold RichHeaderSearch.tryMzHeaderEnd
  split_ifs with h
  · simp only [Bool.and_eq_true, Bool.not_eq_true', decide_eq_true_eq] at h
    obtain ⟨⟨hv, hgt⟩, hpe⟩ := h
    have hnew : mzHeaderSize ∉ s.probes := by
      rw [hone, List.mem_singleton]
      omega
    refine ⟨(hs.read hv hpe hnew).withStandardOffset _, fun h80 => ?_⟩
    rcases List.mem_append.mp h80 with h80 | h80
    · simp [RichHeaderSearch.read, hknown h80]
    · simp [RichHeaderSearch.read, List.mem_singleton.mp h80]
  · exact ⟨hs, hknown⟩

theorem RichHeaderSearch.Inv.tryStandard (hs : s.Inv readRichHeader peHeaderOffset)
    (hknown : s.StandardKnown) :
    (s.tryStandard readRichHeader peHeaderOffset).Inv readRichHeader peHeaderOffset := by
  unfold RichHeaderSearch.tryStandard
  split_ifs with h
  · simp only [Bool.and_eq_true, Bool.not_eq_true', decide_eq_true_eq] at h
    obtain ⟨⟨hv, hstd⟩, hlt⟩ := h
    exact hs.read hv hlt fun hmem => by simp [hknown hmem] at hstd
  · exact hs

theorem richHeaderSearch_inv {mzHeaderSize offset : Nat} (h : offset < peHeaderOffset) :
    (((RichHeaderSearch.first readRichHeader peHeaderOffset offset).tryMzHeaderEnd readRichHeader
      mzHeaderSize peHeaderOffset).tryStandard readRichHeader peHeaderOffset).Inv readRichHeader
        peHeaderOffset :=
  let h2 := (RichHeaderSearch.first_inv h).tryMzHeaderEnd rfl
    (RichHeaderSearch.first_standardKnown offset)
  h2.1.tryStandard h2.2

theorem RichHeaderSearch.finish_probes (mzHeaderSize : Nat) (s : RichHeaderSearch) :
    (s.finish mzHeaderSize).probes = s.probes := by
  unfold RichHeaderSearch.finish
  split_ifs <;> rfl

theorem RichHeaderSearch.Inv.headers_invalid (hs : s.Inv readRichHeader peHeaderOffset)
    (hv : s.header.isHeaderValid = false) :
    ∀ p ∈ s.probes, (readRichHeader p (peHeaderOffset - p)).isHeaderValid = false := by
  intro p hp
  by_contra hpv
  rw [hs.header_eq, ← hs.only_current p hp (by simpa using hpv)] at hv
  exact hpv hv

end Search

/-! ## What `loadRichHeader` reads and records -/

section Load

variable (readRichHeader : Nat → Nat → RichHeaderRead) (mzHeaderSize peHeaderOffset : Nat)

/-- Every read of a load starts before the PE signature, so its size
`getPeHeaderOffset() - offset` does not wrap, and so does the recorded offset. -/
def RichHeaderLoad.ReadsBeforePe (L : RichHeaderLoad) : Prop :=
  (∀ p ∈ L.probes, p < peHeaderOffset) ∧ (∀ o ∈ L.reread, o < peHeaderOffset) ∧
    ∀ o ∈ L.offset, o < peHeaderOffset

def RichHeaderLoad.Outcome (L : RichHeaderLoad) : Prop :=
  let headerValid := fun p => (readRichHeader p (peHeaderOffset - p)).isHeaderValid
  let ranked := preferredOffsets mzHeaderSize
    (L.probes.filter fun p => (readRichHeader p (peHeaderOffset - p)).isStructureValid)
  (L.offset = none → ∀ p ∈ L.probes,
      headerValid p = false ∧ (readRichHeader p (peHeaderOffset - p)).isStructureValid = false) ∧
    ∀ o, L.offset = some o →
      (L.reread = none ∧ o ∈ L.probes ∧ headerValid o = true) ∨
      (L.reread = some o ∧ (∀ p ∈ L.probes, headerValid p = false) ∧
        o ∈ ranked ∧ ∀ off ∈ ranked, off ≤ o)

variable {readRichHeader mzHeaderSize peHeaderOffset} {s : RichHeaderSearch}

theorem RichHeaderSearch.Inv.chosen (hs : s.Inv readRichHeader peHeaderOffset)
    (hne : s.validStructOffsets ≠ []) :
    chooseRichHeaderOffset mzHeaderSize s.validStructOffsets ∈ s.probes ∧
      chooseRichHeaderOffset mzHeaderSize s.validStructOffsets ∈
        preferredOffsets mzHeaderSize s.validStructOffsets ∧
      ∀ off ∈ preferredOffsets mzHeaderSize s.validStructOffsets,
        off ≤ chooseRichHeaderOffset mzHeaderSize s.validStructOffsets := by
  obtain ⟨hmem, hle⟩ := @chooseRichHeaderOffset_spec mzHeaderSize _ hne
  have hprobes : ∀ x ∈ s.validStructOffsets, x ∈ s.probes := fun x hx => by
    rw [hs.valid_eq] at hx
    exact (List.mem_filter.mp hx).1
  exact ⟨hprobes _ (preferredOffsets_subset mzHeaderSize _ hmem), hmem, hle⟩

theorem RichHeaderSearch.Inv.finish_readsBeforePe (hs : s.Inv readRichHeader peHeaderOffset) :
    (s.finish mzHeaderSize).ReadsBeforePe peHeaderOffset := by
  refine ⟨(s.finish_probes mzHeaderSize).symm ▸ hs.probes_lt, ?_⟩
  unfold RichHeaderSearch.finish
  split_ifs with h1 h2
  · simp
  · simpa using hs.probes_lt _ hs.offset_mem
  · have hne : s.validStructOffsets ≠ [] := by simpa [h2] using h1
    have := hs.probes_lt _ (@RichHeaderSearch.Inv.chosen readRichHeader mzHeaderSize peHeaderOffset s hs hne).1
    simpa using this

theorem RichHeaderSearch.Inv.finish_outcome (hs : s.Inv readRichHeader peHeaderOffset) :
    (s.finish mzHeaderSize).Outcome readRichHeader mzHeaderSize peHeaderOffset := by
  unfold RichHeaderLoad.Outcome
  dsimp only
  rw [s.finish_probes, ← hs.valid_eq]
  unfold RichHeaderSearch.finish
  split_ifs with h1 h2
  · simp only [Bool.and_eq_true, Bool.not_eq_true', List.isEmpty_iff] at h1
    refine ⟨fun _ p hp => ⟨hs.headers_invalid h1.1 p hp, ?_⟩, fun o ho => nomatch ho⟩
    have hnil := h1.2
    rw [hs.valid_eq, List.filter_eq_nil_iff] at hnil
    simpa using hnil p hp
  · refine ⟨False.elim, fun o ho => ?_⟩
    cases ho
    exact .inl ⟨rfl, hs.offset_mem, hs.header_eq ▸ h2⟩
  · have hv : s.header.isHeaderValid = false := by simpa using h2
    have hne : s.validStructOffsets ≠ [] := by simpa [h2] using h1
    refine ⟨False.elim, fun o ho => ?_⟩
    cases ho
    exact .inr ⟨rfl, hs.headers_invalid hv, (hs.chosen hne).2⟩

theorem loadRichHeader_readsBeforePe (readRichHeader : Nat → Nat → RichHeaderRead) (bytes : Bytes)
    (mzHeaderSize peHeaderOffset : Nat) :
    (loadRichHeader readRichHeader bytes mzHeaderSize peHeaderOffset).ReadsBeforePe
      peHeaderOffset := by
  unfold loadRichHeader
  dsimp only
  split_ifs with h1 h2
  · simp [RichHeaderLoad.ReadsBeforePe]
  · simp [RichHeaderLoad.ReadsBeforePe]
  · exact (richHeaderSearch_inv (Nat.lt_of_not_ge h2)).finish_readsBeforePe

theorem loadRichHeader_probes_nodup (readRichHeader : Nat → Nat → RichHeaderRead) (bytes : Bytes)
    (mzHeaderSize peHeaderOffset : Nat) :
    (loadRichHeader readRichHeader bytes mzHeaderSize peHeaderOffset).probes.Nodup := by
  unfold loadRichHeader
  dsimp only
  split_ifs with h1 h2
  · exact List.nodup_nil
  · exact List.nodup_nil
  · rw [RichHeaderSearch.finish_probes]
    exact (richHeaderSearch_inv (Nat.lt_of_not_ge h2)).nodup

theorem loadRichHeader_outcome (readRichHeader : Nat → Nat → RichHeaderRead) (bytes : Bytes)
    (mzHeaderSize peHeaderOffset : Nat) :
    (loadRichHeader readRichHeader bytes mzHeaderSize peHeaderOffset).Outcome readRichHeader
      mzHeaderSize peHeaderOffset := by
  unfold loadRichHeader
  dsimp only
  split_ifs with h1 h2
  · simp [RichHeaderLoad.Outcome]
  · simp [RichHeaderLoad.Outcome]
  · exact (richHeaderSearch_inv (Nat.lt_of_not_ge h2)).finish_outcome

end Load

end PeFormat
