import PeFormat.Image

/-!
What `PeFormat` derives from the file header: the byte order, the word size and the
architecture of the machine type, and PeLib's loader error. The machine types are PeLib
constants, not in the sources: each constructor is a constant a switch case names, and
`other` is any value no case names. `initLoaderErrorInfo` keeps the first error reported:
over any sequence of calls, the record holds the first code other than `LDR_ERROR_NONE`,
with its two strings.
-/
namespace PeFormat

/-! ## The machine type -/

/-- `formatParser->getMachineType()`, by the `PELIB_IMAGE_FILE_MACHINE_` constant it equals. -/
inductive MachineType
  | i386 | i486 | pentium | amd64
  | r3000Big | r3000Little | r4000 | r10000 | wcemipsv2 | mips16 | mipsfpu | mipsfpu16
  | arm | thumb | armnt | arm64
  | powerpc | powerpcfp
  | other
  deriving DecidableEq, Repr

/-- `getEndianness`; `none` is `Endianness::UNKNOWN`. -/
def getEndianness : MachineType → Option Endianness
  | .i386 | .i486 | .pentium | .amd64 | .r3000Little | .r4000 | .r10000 | .wcemipsv2 | .mips16
  | .mipsfpu | .mipsfpu16 | .arm | .thumb | .armnt | .arm64 | .powerpc | .powerpcfp => some .little
  | .r3000Big => some .big
  | .other => none

/-- `getBytesPerWord`; `pe64` is `peClass == PEFILE64`. -/
def getBytesPerWord (pe64 : Bool) : MachineType → Nat
  | .i386 | .i486 | .pentium => 4
  | .amd64 => 8
  | .r3000Big | .r3000Little => 4
  | .r4000 => if pe64 then 8 else 4
  | .r10000 => 8
  | .wcemipsv2 => 4
  | .mips16 => 2
  | .mipsfpu => 8
  | .mipsfpu16 => 2
  | .arm | .thumb | .armnt => 4
  | .arm64 => 8
  | .powerpc | .powerpcfp => if pe64 then 8 else 4
  | .other => 0

/-- `Architecture`, as far as `getTargetArchitecture` gives it. -/
inductive Architecture
  | unknown
  | x86
  | x86_64
  | mips
  | arm
  | powerpc
  deriving DecidableEq, Repr

def getTargetArchitecture : MachineType → Architecture
  | .i386 | .i486 | .pentium => .x86
  | .amd64 => .x86_64
  | .r3000Big | .r3000Little | .r4000 | .r10000 | .wcemipsv2 | .mips16 | .mipsfpu
  | .mipsfpu16 => .mips
  | .arm | .thumb | .armnt | .arm64 => .arm
  | .powerpc | .powerpcfp => .powerpc
  | .other => .unknown

/-! ## The loader error -/

/-- `PeLib::LDR_ERROR_NONE`, the first value of `PeLib::LoaderError`. -/
def ldrErrorNone : Nat := 0

structure LoaderErrorInfo where
  loaderErrorCode : Nat
  loaderError : Bytes
  loaderErrorUserFriendly : Bytes
  deriving DecidableEq, Repr

/-- `initLoaderErrorInfo(ldrError)`; `getLoaderErrorString`, not in the sources, is a
parameter. -/
def initLoaderErrorInfo (getLoaderErrorString : Nat → Bool → Bytes) (info : LoaderErrorInfo)
    (ldrError : Nat) : LoaderErrorInfo :=
  if info.loaderErrorCode = ldrErrorNone then
    ⟨ldrError, getLoaderErrorString ldrError false, getLoaderErrorString ldrError true⟩
  else info

section Runs

variable (getLoaderErrorString : Nat → Bool → Bytes)

def errorInfo (ldrError : Nat) : LoaderErrorInfo :=
  ⟨ldrError, getLoaderErrorString ldrError false, getLoaderErrorString ldrError true⟩

theorem foldl_initLoaderErrorInfo_of_recorded {info : LoaderErrorInfo}
    (h : info.loaderErrorCode ≠ ldrErrorNone) (errors : List Nat) :
    errors.foldl (initLoaderErrorInfo getLoaderErrorString) info = info := by
  induction errors with
  | nil => rfl
  | cons e errors ih => rwa [List.foldl_cons, initLoaderErrorInfo, if_neg h]

theorem foldl_initLoaderErrorInfo {info : LoaderErrorInfo} (h : info.loaderErrorCode = ldrErrorNone)
    (errors : List Nat) :
    errors.foldl (initLoaderErrorInfo getLoaderErrorString) info =
      match errors.find? (· ≠ ldrErrorNone) with
      | some e => errorInfo getLoaderErrorString e
      | none => if errors = [] then info else errorInfo getLoaderErrorString ldrErrorNone := by
  induction errors generalizing info with
  | nil => rfl
  | cons e errors ih =>
    have step : initLoaderErrorInfo getLoaderErrorString info e = errorInfo getLoaderErrorString e :=
      if_pos h
    rw [List.foldl_cons, step]
    by_cases he : e = ldrErrorNone
    · subst he
      rw [ih rfl, List.find?_cons_of_neg _ (by simp)]
      cases errors.find? (· ≠ ldrErrorNone) <;> simp [errorInfo]
    · rw [foldl_initLoaderErrorInfo_of_recorded _ he, List.find?_cons_of_pos _ (by simpa using he)]

end Runs

theorem foldl_initLoaderErrorInfo_second :
    (⟨0, [], []⟩ : LoaderErrorInfo).loaderErrorCode = ldrErrorNone ∧
      [0, 7, 3].foldl (initLoaderErrorInfo fun e _ => [e.toUInt8]) ⟨0, [], []⟩ = ⟨7, [7], [7]⟩ := by
  refine ⟨rfl, ?_⟩
  rw [foldl_initLoaderErrorInfo _ rfl]
  rfl

end PeFormat
