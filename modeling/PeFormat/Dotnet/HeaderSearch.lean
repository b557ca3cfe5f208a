import PeFormat.Image

/-!
`detectPossibleMetadataHeaderAddress`: the search for a .NET metadata root in a file that
imports `mscoree.dll` but has no CLR header. Sections are searched in order, each address
by address, for the signature `BSJB` whose first stream is named like a metadata stream.
A read that fails at a candidate ends the search of its section (`break`), which is where
the code and the first-match search part: they agree wherever the reads before the first
root of each section succeed. The fields are read little endian, as `getEndianness` gives
them for every machine but `R3000_BIG`.
-/
namespace PeFormat

def MetadataHeaderSignature : Nat := 0x424A5342

def possibleStreamNames : List Bytes :=
  [ascii "#~", ascii "#-", ascii "#Strings", ascii "#Blob", ascii "#GUID", ascii "#US"]

/-- A section as the search reads it: `getAddress` and `getEndAddress`. -/
structure Section where
  address : Nat
  endAddress : Nat
  deriving DecidableEq, Repr

variable (img : Image)

/-- The inner loop from `inSecAddress`, with `n` addresses of the section left: the
header's address, or `none` when the section is exhausted or a read fails. -/
def scanSection : Nat → Nat → Option Nat
  | _, 0 => none
  | inSecAddress, n + 1 =>
    match img.get4Byte inSecAddress .little with
    | none => none
    | some signature =>
      if signature = MetadataHeaderSignature then
        match img.get2Byte (inSecAddress + 12) .little with
        | none => none
        | some versionLength =>
          -- header fields, version string, stream count, offset and size of the first stream
          match img.getNTBS (inSecAddress + 16 + versionLength + 4 + 8) 0 with
          | none => none
          | some streamName =>
            if streamName ∈ possibleStreamNames then some inSecAddress
            else scanSection (inSecAddress + 1) n
      else scanSection (inSecAddress + 1) n

def detectPossibleMetadataHeaderAddress (sections : List Section) : Nat :=
  (sections.findSome? fun sec => scanSection img sec.address (sec.endAddress - sec.address)).getD 0

def isMetadataHeaderAt (a : Nat) : Bool :=
  match img.get4Byte a .little, img.get2Byte (a + 12) .little with
  | some signature, some versionLength =>
    signature == MetadataHeaderSignature &&
      match img.getNTBS (a + 28 + versionLength) 0 with
      | some name => possibleStreamNames.contains name
      | none => false
  | _, _ => false

def firstMetadataHeaderAddress (sections : List Section) : Nat :=
  (sections.findSome? fun sec =>
    (List.range' sec.address (sec.endAddress - sec.address)).find? (isMetadataHeaderAt img)).getD 0

variable {img}

theorem nameAddress_eq (a versionLength : Nat) :
    a + 16 + versionLength + 4 + 8 = a + 28 + versionLength := by
  omega

theorem scanSection_sound {a n b : Nat} (h : scanSection img a n = some b) :
    isMetadataHeaderAt img b ∧ a ≤ b ∧ b < a + n := by
  induction n generalizing a with
  | zero => simp [scanSection] at h
  | succ n ih =>
    simp only [scanSection] at h
    split at h
    · cases h
    · rename_i signature hsig
      split at h
      · rename_i found
        split at h
        · cases h
        · rename_i versionLength hlen
          split at h
          · cases h
          · rename_i name hname
            split at h
            · cases h
              rw [nameAddress_eq] at hname
              simp_all [isMetadataHeaderAt, List.elem_iff]
            · have := ih h
              exact ⟨this.1, by omega, by omega⟩
      · have := ih h
        exact ⟨this.1, by omega, by omega⟩

theorem detectPossibleMetadataHeaderAddress_sound {sections : List Section} {a : Nat}
    (h : detectPossibleMetadataHeaderAddress img sections = a) (hne : a ≠ 0) :
    isMetadataHeaderAt img a ∧ ∃ sec ∈ sections, sec.address ≤ a ∧ a < sec.endAddress := by
  unfold detectPossibleMetadataHeaderAddress at h
  cases hs : sections.findSome? (fun sec => scanSection img sec.address
      (sec.endAddress - sec.address)) with
  | none => simp [hs] at h; exact absurd h.symm hne
  | some b =>
    obtain ⟨sec, mem, hsec⟩ := List.exists_of_findSome?_eq_some hs
    simp only [hs, Option.getD_some] at h
    subst h
    have := scanSection_sound hsec
    exact ⟨this.1, sec, mem, this.2.1, by omega⟩

def decoyImage : Image :=
  ⟨[0x42, 0x53, 0x4A, 0x42, 0, 0, 0, 0, 0, 0, 0, 0, 0xFF, 0xFF, 0, 0] ++ List.replicate 16 0 ++
    [0x42, 0x53, 0x4A, 0x42, 0, 0, 0, 0, 0, 0, 0, 0, 0, 0, 0, 0] ++ List.replicate 12 0 ++
    [0x23, 0x7E, 0, 0], fun a => if a < 64 then some a else none, by decide⟩

theorem detectPossibleMetadataHeaderAddress_decoy_root :
    detectPossibleMetadataHeaderAddress decoyImage [⟨32, 64⟩] = 32 ∧
      isMetadataHeaderAt decoyImage 32 ∧
        ∃ sec ∈ ([⟨32, 64⟩] : List Section), sec.address ≤ 32 ∧ 32 < sec.endAddress :=
  have h : detectPossibleMetadataHeaderAddress decoyImage [⟨32, 64⟩] = 32 := by decide
  ⟨h, detectPossibleMetadataHeaderAddress_sound h (by decide)⟩

theorem detectPossibleMetadataHeaderAddress_decoy :
    detectPossibleMetadataHeaderAddress decoyImage [⟨0, 64⟩] = 0 ∧
      firstMetadataHeaderAddress decoyImage [⟨0, 64⟩] = 32 := by
  decide

end PeFormat
