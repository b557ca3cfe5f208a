import PeFormat.Dotnet.TypeLib

/-!
`initDllList` and `isMissingDependency`: the DLLs of the operating system that an import
is checked against. The list file is read with `while (stream) { std::getline(..); .. }`,
each line lower-cased and inserted into the set `dllList`; `isMissingDependency` looks a
lower-cased name up in that set when it is not empty, and in the default set `defDllList`
otherwise. The default set is not in the sources and is a parameter; the file is its
contents, or `none` when it cannot be opened. `std::getline` follows the C++ standard.
The loop is proved to insert exactly the file's lines, split at every newline: an empty
file, and a file ending with a newline, also give the empty line, so a file that opens
always replaces the default set.
-/
namespace PeFormat

structure LineStream where
  rest : Bytes
  eof : Bool
  fail : Bool
  deriving DecidableEq, Repr

/-- `std::getline(stream, line)`: when the stream is not good the sentry sets `failbit`
and `line` is left as it was; otherwise `line` is erased, the bytes up to the next newline
are extracted and the newline is discarded. Reaching the end sets `eofbit`, and `failbit`
too when nothing was extracted. -/
def getline (s : LineStream) (line : Bytes) : LineStream × Bytes :=
  if s.eof || s.fail then ({ s with fail := true }, line)
  else
    let taken := s.rest.takeWhile (· != 0x0A)
    match s.rest.dropWhile (· != 0x0A) with
    | _ :: rest => (⟨rest, false, false⟩, taken)
    | [] => (⟨[], true, taken.isEmpty⟩, taken)

/-- The loop of `initDllList`: while the stream has not failed, read a line into
`oneLine`, lower-case it and insert it. `oneLine` lives across the rounds; `fuel` bounds
them. -/
def readDllList : Nat → LineStream → Bytes → List Bytes → List Bytes
  | 0, _, _, dllList => dllList
  | fuel + 1, stream, oneLine, dllList =>
    if stream.fail then dllList
    else
      let read := getline stream oneLine
      let oneLine := toLower read.2
      readDllList fuel read.1 oneLine (dllList.insert oneLine)

/-- The members of `PeFormat` the DLL list sets: `initStructures` clears the error flag
and the set starts empty. -/
structure DllListState where
  dllList : List Bytes
  errorLoadingDllList : Bool
  deriving DecidableEq, Repr

def DllListState.init : DllListState := ⟨[], false⟩

/-- `initDllList`, with what the file holds, `none` when it cannot be opened. Each round
reads at most one line and the file has fewer lines than bytes plus one, so
`bytes.length + 2` rounds leave the stream failed. -/
def initDllList (dllListFile : Bytes) (contents : Option Bytes) (s : DllListState) :
    DllListState × Bool :=
  if dllListFile.length = 0 then (s, true)
  else
    match contents with
    | none => ({ s with errorLoadingDllList := true }, false)
    | some bytes =>
      ({ s with dllList := readDllList (bytes.length + 2) ⟨bytes, false, false⟩ [] s.dllList },
        true)

def isMissingDependency (defDllList : List Bytes) (s : DllListState) (dllName : Bytes) : Bool :=
  let dllName := toLower dllName
  if dllName.length > 4 && (dllName.take 4 == ascii "api-" || dllName.take 4 == ascii "ext-") then
    false
  else
    let depsDllList := if s.dllList.length != 0 then s.dllList else defDllList
    depsDllList.count dllName == 0

/-! ## The lines of the list file -/

def listedDlls (bytes : Bytes) : List Bytes := (bytes.splitOn 0x0A).map toLower

def ApiSetName (dllName : Bytes) : Prop :=
  4 < dllName.length ∧ (dllName.take 4 = ascii "api-" ∨ dllName.take 4 = ascii "ext-")

instance (dllName : Bytes) : Decidable (ApiSetName dllName) :=
  inferInstanceAs (Decidable (_ ∧ _))

theorem toLower_toLower (s : Bytes) : toLower (toLower s) = toLower s := by
  simp only [toLower, List.map_map]
  refine List.map_congr_left fun c _ => ?_
  simp only [Function.comp, UInt8.le_def, UInt8.add_def, UInt8.toBitVec_ofNat]
  split_ifs <;> bv_omega

theorem readDllList_fail (fuel : Nat) (rest oneLine : Bytes) (eof : Bool) (acc : List Bytes) :
    readDllList fuel ⟨rest, eof, true⟩ oneLine acc = acc := by
  cases fuel <;> rfl

theorem readDllList_eof (fuel : Nat) (oneLine : Bytes) (acc : List Bytes) :
    readDllList (fuel + 1) ⟨[], true, false⟩ (toLower oneLine) acc =
      acc.insert (toLower oneLine) := by
  simp only [readDllList, getline, Bool.true_or, if_true, toLower_toLower]
  exact readDllList_fail fuel _ _ _ _

theorem splitOn_newline {taken rest : Bytes} (h : ∀ c ∈ taken, (c != 0x0A) = true) :
    (taken ++ 0x0A :: rest).splitOn 0x0A = taken :: rest.splitOn 0x0A :=
  List.splitOnP_first _ _ (fun c hc => by simpa using h c hc) _ (by simp) _

theorem splitOn_no_newline {rest : Bytes} (h : ∀ c ∈ rest, (c != 0x0A) = true) :
    rest.splitOn 0x0A = [rest] :=
  List.splitOnP_eq_single _ _ fun c hc => by simpa using h c hc

theorem mem_readDllList {rest : Bytes} {fuel : Nat} (hf : rest.length + 2 ≤ fuel)
    (oneLine : Bytes) (acc : List Bytes) (x : Bytes) :
    x ∈ readDllList fuel ⟨rest, false, false⟩ oneLine acc ↔ x ∈ acc ∨ x ∈ listedDlls rest := by
  obtain ⟨n, h⟩ : ∃ n, rest.length = n := ⟨_, rfl⟩
  induction n using Nat.strong_induction_on generalizing rest fuel oneLine acc with
  | _ n ih =>
  obtain ⟨fuel, rfl⟩ : ∃ f, fuel = f + 1 := ⟨fuel - 1, by omega⟩
  have split := List.takeWhile_append_dropWhile (· != (0x0A : UInt8)) rest
  simp only [readDllList, getline, Bool.false_or, if_false, Bool.false_eq_true]
  cases hd : rest.dropWhile (· != 0x0A) with
  | cons c rest' =>
    have hc : c = 0x0A := by
      have := List.head?_dropWhile_not (· != (0x0A : UInt8)) rest
      rw [hd] at this
      simpa using this
    have htaken : ∀ x ∈ rest.takeWhile (· != (0x0A : UInt8)), (x != 0x0A) = true :=
      fun _ hx => List.mem_takeWhile_imp (p := (· != (0x0A : UInt8))) hx
    rw [hd, hc] at split
    generalize rest.takeWhile (· != (0x0A : UInt8)) = taken at htaken split ⊢
    subst split
    simp only [List.length_append, List.length_cons] at hf h
    rw [ih rest'.length (by omega) (by omega) _ _ rfl]
    simp [listedDlls, splitOn_newline htaken, List.mem_insert_iff, or_assoc, or_left_comm]
  | nil =>
    rw [hd, List.append_nil] at split
    have lines : listedDlls rest = [toLower rest] := by
      rw [listedDlls, splitOn_no_newline (List.dropWhile_eq_nil_iff.mp hd)]
      rfl
    rw [split]
    cases hr : rest.isEmpty
    · obtain ⟨f, rfl⟩ : ∃ f', fuel = f' + 1 := ⟨fuel - 1, by
        have : rest ≠ [] := by simpa using hr
        have := List.length_pos.mpr this
        omega⟩
      rw [readDllList_eof, lines]
      simp [List.mem_insert_iff, or_comm]
    · rw [readDllList_fail, lines]
      simp [List.mem_insert_iff, or_comm]

theorem listedDlls_ne_nil (bytes : Bytes) : listedDlls bytes ≠ [] := by
  simpa [listedDlls, List.splitOn] using List.splitOnP_ne_nil _ bytes

/-! ## The DLL list after `initDllList` -/

theorem mem_initDllList {dllListFile : Bytes} (hfile : dllListFile ≠ []) (bytes x : Bytes) :
    x ∈ (initDllList dllListFile (some bytes) DllListState.init).1.dllList ↔
      x ∈ listedDlls bytes := by
  have hlen : dllListFile.length ≠ 0 := by simpa using hfile
  simp only [initDllList, hlen, if_false]
  rw [mem_readDllList le_rfl]
  simp [DllListState.init]

theorem mem_initDllList_crlf :
    ascii "dlls.txt" ≠ [] ∧ ascii "kernel32.dll\r" ∈
      (initDllList (ascii "dlls.txt") (some (ascii "KERNEL32.DLL\r\n")) DllListState.init).1.dllList :=
  ⟨by decide, (mem_initDllList (by decide) _ _).mpr (by decide)⟩

/-- The set `isMissingDependency` consults after `initDllList`: the lines of the list
file when it opens, the default set when no file is named or it cannot be opened. -/
def dependencyList (defDllList : List Bytes) (dllListFile : Bytes) (contents : Option Bytes) :
    List Bytes :=
  match dllListFile, contents with
  | [], _ => defDllList
  | _ :: _, none => defDllList
  | _ :: _, some bytes => listedDlls bytes

theorem isMissingDependency_eq (defDllList : List Bytes) (s : DllListState) (dllName : Bytes) :
    isMissingDependency defDllList s dllName = true ↔
      ¬ApiSetName (toLower dllName) ∧
        toLower dllName ∉ (if s.dllList = [] then defDllList else s.dllList) := by
  have api : (decide ((toLower dllName).length > 4) &&
      ((toLower dllName).take 4 == ascii "api-" || (toLower dllName).take 4 == ascii "ext-")) =
      decide (ApiSetName (toLower dllName)) := by
    simp [ApiSetName, Bool.beq_eq_decide_eq]
  have deps : (if s.dllList.length != 0 then s.dllList else defDllList) =
      if s.dllList = [] then defDllList else s.dllList := by
    cases s.dllList <;> rfl
  by_cases hapi : ApiSetName (toLower dllName) <;>
    simp [isMissingDependency, api, deps, hapi, List.count_eq_zero]

theorem isMissingDependency_initDllList (defDllList : List Bytes) (dllListFile : Bytes)
    (contents : Option Bytes) (dllName : Bytes) :
    isMissingDependency defDllList (initDllList dllListFile contents DllListState.init).1 dllName
        = true ↔
      ¬ApiSetName (toLower dllName) ∧
        toLower dllName ∉ dependencyList defDllList dllListFile contents := by
  rw [isMissingDependency_eq]
  rcases dllListFile with _ | ⟨c, cs⟩
  · rfl
  · cases contents with
    | none => rfl
    | some bytes =>
      have hmem := mem_initDllList (List.cons_ne_nil c cs) bytes
      have hne : (initDllList (c :: cs) (some bytes) DllListState.init).1.dllList ≠ [] := by
        obtain ⟨y, hy⟩ := List.exists_mem_of_ne_nil _ (listedDlls_ne_nil bytes)
        exact List.ne_nil_of_mem ((hmem y).mpr hy)
      simp only [if_neg hne, dependencyList, hmem]

example : isMissingDependency [ascii "kernel32.dll"]
    (initDllList (ascii "dlls.txt") (some []) DllListState.init).1 (ascii "KERNEL32.DLL") = true := by
  decide

end PeFormat
