import PeFormat.DllList
import PeFormat.Pdb

/-!
The loaders that copy PeLib's tables into `PeFormat`: `loadSections`, `loadSymbols`,
`loadImports` and `loadExports`. PeLib is not in the sources: the parser's sections, COFF
symbols, imported libraries and exported functions are inputs, read by position. `loadSections` skips a section the parser cannot
give, and `loadSymbols` looks a symbol's section up among the loaded sections by the
section number of the file: the two agree when every section loads. `loadImports`
adds the delay-load libraries after the others and gives each of their imports the index of
its library. `loadExports` renames an export whose name has a character `isprint` rejects,
so every name it keeps is printable.
-/
namespace PeFormat

/-! ## Sections and symbols -/

/-- What `loadSymbols` reads of a loaded section. -/
structure CoffSection where
  address : Nat
  deriving DecidableEq, Repr

/-- The sections `getSection` gives among the first `getStoredNumberOfSections`, in order;
`computeEntropy` is not modelled. -/
def loadSections (getSection : Nat → Option CoffSection) (storedNumberOfSections : Nat) :
    List CoffSection :=
  (List.range storedNumberOfSections).filterMap getSection

structure CoffSymbol where
  name : Bytes
  index : Nat
  sectionNumber : Nat
  value : Nat
  storageClass : Nat
  typeComplex : Nat
  deriving DecidableEq, Repr

/-! The storage classes of the COFF format, under PeLib's names. -/

def peImageSymClassExternal : Nat := 2

def peImageSymClassStatic : Nat := 3

def peImageSymClassFile : Nat := 0x67

/-- `Symbol::Type`, with `EXTERN` as `externSym`. -/
inductive SymbolType
  | undefinedSym
  | common
  | externSym
  | absoluteSym
  | «public»
  | «private»
  deriving DecidableEq, Repr

inductive SymbolUsageType
  | unknown
  | function
  | file
  deriving DecidableEq, Repr

def getSymbolType (link value storageClass : Nat) : SymbolType :=
  if link = 0 then (if value ≠ 0 then .common else .externSym)
  else if link = 0xFFFF ∨ link = 0xFFFE then .absoluteSym
  else if storageClass = peImageSymClassExternal then .«public»
  else if storageClass = peImageSymClassStatic then .«private»
  else .undefinedSym

def getSymbolUsageType (storageClass complexType : Nat) : SymbolUsageType :=
  if 0x20 ≤ complexType ∧ complexType < 0x30 then .function
  else if storageClass = peImageSymClassFile then .file
  else .unknown

structure Symbol where
  originalName : Bytes
  name : Bytes
  index : Nat
  linkToSection : Option Nat
  address : Option Nat
  isThumbSymbol : Bool
  type : SymbolType
  usageType : SymbolUsageType
  deriving DecidableEq, Repr

/-- The body of the loop of `loadSymbols`. `getNumberOfSections()` is the number of loaded
sections, and a loaded section is never null; the address is a `unsigned long long` sum. A
new `Symbol` is not a Thumb symbol until it is set to be one. -/
def loadSymbol (isArm : Bool) (sections : List CoffSection) (s : CoffSymbol) : Symbol :=
  let link := s.sectionNumber
  let symbol : Symbol := ⟨s.name, s.name, s.index, none, none, false,
    getSymbolType link s.value s.storageClass, getSymbolUsageType s.storageClass s.typeComplex⟩
  if link = 0 ∨ link = 0xFFFF ∨ link = 0xFFFE then symbol
  else
    match if link ≤ sections.length then sections[link - 1]? else none with
    | some sec =>
      let a := (sec.address + s.value) % 2 ^ 64
      { symbol with linkToSection := some (link - 1), address := some a,
                    isThumbSymbol := isArm && a % 2 == 1 }
    | none => { symbol with linkToSection := some (link - 1) }

/-- The symbol table `loadSymbols` adds, only when it has symbols. -/
def loadSymbols (isArm : Bool) (sections : List CoffSection) (symTab : List CoffSymbol) :
    Option (List Symbol) :=
  let table := symTab.map (loadSymbol isArm sections)
  if table.isEmpty then none else some table

section AllLoad

variable {getSection : Nat → Option CoffSection} {n : Nat} (hall : ∀ i < n, (getSection i).isSome)
include hall

theorem length_loadSections : (loadSections getSection n).length = n := by
  rw [loadSections, List.length_filterMap_eq_countP, List.countP_eq_length.mpr, List.length_range]
  exact fun i hi => by simpa using hall i (List.mem_range.mp hi)

theorem getElem?_loadSections (k : Nat) :
    (loadSections getSection n)[k]? = if k < n then getSection k else none := by
  induction n with
  | zero => simp [loadSections]
  | succ n ih =>
    have below : ∀ i < n, (getSection i).isSome := fun i hi => hall i (by omega)
    obtain ⟨sec, hsec⟩ := Option.isSome_iff_exists.mp (hall n (Nat.lt_succ_self n))
    have step : loadSections getSection (n + 1) = loadSections getSection n ++ [sec] := by
      simp [loadSections, List.range_succ, List.filterMap_append, hsec]
    have len := length_loadSections below
    rw [step]
    rcases Nat.lt_trichotomy k n with h | rfl | h
    · rw [List.getElem?_append_left (by omega), ih below]
      simp [h, Nat.lt_succ_of_lt h]
    · simp [List.getElem?_append_right (le_of_eq len), len, hsec]
    · rw [List.getElem?_eq_none (by simp [len]; omega)]
      simp [show ¬k < n + 1 by omega]

theorem loadSymbol_address (isArm : Bool) (s : CoffSymbol) :
    (loadSymbol isArm (loadSections getSection n) s).address =
      ((loadSymbol isArm (loadSections getSection n) s).linkToSection.filter (· < n)).bind
        fun k => (getSection k).map fun sec => (sec.address + s.value) % 2 ^ 64 := by
  dsimp only [loadSymbol]
  rw [length_loadSections hall]
  split_ifs with hinvalid hle
  · rfl
  · have hk : s.sectionNumber - 1 < n := by omega
    obtain ⟨sec, hsec⟩ := Option.isSome_iff_exists.mp (hall _ hk)
    simp [getElem?_loadSections hall, hk, hsec, Option.filter]
  · simp [Option.filter, show ¬s.sectionNumber - 1 < n by omega]

end AllLoad

def twoSections (i : Nat) : Option CoffSection := some ⟨0x1000 * (i + 1)⟩

theorem loadSymbol_address_twoSections :
    (∀ i < 2, (twoSections i).isSome) ∧
      (loadSymbol false (loadSections twoSections 2) ⟨ascii "f", 0, 2, 0x10, 2, 0x20⟩).address =
        some 0x2010 := by
  refine ⟨fun _ _ => rfl, ?_⟩
  rw [@loadSymbol_address twoSections 2 (fun _ _ => rfl)]
  decide

/-- When a section does not load, the later sections move down one place: a symbol of
the file's third section takes the fourth's address while it links to the third. -/
example :
    loadSymbol false (loadSections (fun i => if i = 0 then none else some ⟨0x1000 * i⟩) 4)
      ⟨ascii "f", 0, 3, 0x10, 2, 0x20⟩ =
      ⟨ascii "f", ascii "f", 0, some 2, some 0x3010, false, .«public», .function⟩ := by
  decide

/-! ## Imports -/

/-- An import as the parser gives it: `loadImports` sets the library index of a delay-load
import. -/
structure Import where
  name : Bytes
  libraryIndex : Nat
  deriving DecidableEq, Repr

/-- What `loadImports` fills of an `ImportTable`: the libraries, each with its
missing-dependency flag, and the imports. -/
structure ImportTable where
  libraries : List (Bytes × Bool)
  imports : List Import
  deriving DecidableEq, Repr

def ImportTable.empty : ImportTable := ⟨[], []⟩

/-- A library the parser gives, with its imports up to the first one `getImport` cannot
give. -/
abbrev ImportedLibrary := Bytes × List Import

/-- A turn of the first loop: `addLibrary(libname, missingDependency)` and the imports. -/
def addImportedLibrary (missingDependency : Bool) (importTable : ImportTable)
    (library : ImportedLibrary) : ImportTable :=
  ⟨importTable.libraries ++ [(library.1, missingDependency)], importTable.imports ++ library.2⟩

/-- A turn of the second loop: `addLibrary(libname)`, not missing, and the imports, each
with the index of the library just added. -/
def addDelayImportedLibrary (importTable : ImportTable) (library : ImportedLibrary) :
    ImportTable :=
  let libraries := importTable.libraries ++ [(library.1, false)]
  ⟨libraries, importTable.imports ++
    library.2.map fun imp => { imp with libraryIndex := libraries.length - 1 }⟩

/-- `loadImports`: the libraries are those the parser gives up to the first index it cannot
give a name for, then the delay-load libraries alike. `loadImpHash` and the occupied ranges
are not modelled. -/
def loadImports (defDllList : List Bytes) (dllList : DllListState)
    (importTable : Option ImportTable) (libraries delayLibraries : List ImportedLibrary) :
    ImportTable :=
  let importTable := libraries.foldl
    (fun t library => addImportedLibrary (isMissingDependency defDllList dllList library.1) t library)
    (importTable.getD .empty)
  delayLibraries.foldl addDelayImportedLibrary importTable

theorem foldl_addImportedLibrary (missing : Bytes → Bool) (libraries : List ImportedLibrary)
    (t : ImportTable) :
    libraries.foldl (fun t library => addImportedLibrary (missing library.1) t library) t =
      ⟨t.libraries ++ libraries.map (fun library => (library.1, missing library.1)),
        t.imports ++ libraries.flatMap (·.2)⟩ := by
  induction libraries generalizing t with
  | nil => simp
  | cons library libraries ih =>
    rw [List.foldl_cons, ih]
    simp [addImportedLibrary]

theorem foldl_addDelayImportedLibrary (delayLibraries : List ImportedLibrary) (t : ImportTable) :
    delayLibraries.foldl addDelayImportedLibrary t =
      ⟨t.libraries ++ delayLibraries.map (fun library => (library.1, false)),
        t.imports ++ (delayLibraries.enumFrom t.libraries.length).flatMap fun p =>
          p.2.2.map fun imp => { imp with libraryIndex := p.1 }⟩ := by
  induction delayLibraries generalizing t with
  | nil => simp
  | cons library delayLibraries ih =>
    rw [List.foldl_cons, ih]
    simp [addDelayImportedLibrary]

theorem loadImports_table (defDllList : List Bytes) (dllList : DllListState)
    (libraries delayLibraries : List ImportedLibrary) :
    loadImports defDllList dllList none libraries delayLibraries =
      ⟨libraries.map (fun library => (library.1, isMissingDependency defDllList dllList library.1)) ++
          delayLibraries.map (fun library => (library.1, false)),
        libraries.flatMap (·.2) ++ (delayLibraries.enumFrom libraries.length).flatMap fun p =>
          p.2.2.map fun imp => { imp with libraryIndex := p.1 }⟩ := by
  simp [loadImports, foldl_addImportedLibrary, foldl_addDelayImportedLibrary, ImportTable.empty]

/-! ## Exports -/

/-- An exported function as `getExportedFunction` fills `newExport`: what `loadExports`
reads of it. -/
structure Export where
  name : Bytes
  address : Nat
  deriving DecidableEq, Repr

/-- Modelled from the spec: `isPrintableChar` (not in the sources) is `std::isprint` in the
"C" locale. -/
def isPrintableChar (c : UInt8) : Bool := 0x20 ≤ c && c ≤ 0x7E

def hasNonprintableChars (s : Bytes) : Bool := s.any fun c => !isPrintableChar c

/-- The exports `loadExports` adds, in order: the loop ends at the first function the parser
cannot give. -/
def loadExports (getExportedFunction : Nat → Option Export) (numberOfExportedFunctions : Nat) :
    List Export :=
  tableLoop getExportedFunction
    (fun newExport => some
      (if hasNonprintableChars newExport.name then
        { newExport with name := ascii "exported_function_" ++ hexText newExport.address }
      else newExport))
    0 numberOfExportedFunctions

theorem hasNonprintableChars_append (s t : Bytes) :
    hasNonprintableChars (s ++ t) = (hasNonprintableChars s || hasNonprintableChars t) :=
  List.any_append

theorem hasNonprintableChars_hexText (n : Nat) : hasNonprintableChars (hexText n) = false := by
  have printable : ∀ c ∈ hexDigits, isPrintableChar c = true := by decide
  simpa [hasNonprintableChars] using fun c hc => printable c (hexText_subset n hc)

theorem loadExports_printable (getExportedFunction : Nat → Option Export) (n : Nat) :
    ∀ ex ∈ loadExports getExportedFunction n, hasNonprintableChars ex.name = false ∧
      ∃ i < n, ∃ orig, getExportedFunction i = some orig ∧ ex.address = orig.address ∧
        ex.name = if hasNonprintableChars orig.name then
          ascii "exported_function_" ++ hexText orig.address else orig.name := by
  intro ex hex
  obtain ⟨i, orig, -, hi, horig, hstep⟩ := mem_tableLoop hex
  cases Option.some.inj hstep
  refine ⟨?_, i, by omega, orig, horig, ?_⟩
  · split_ifs with hname
    · rw [hasNonprintableChars_append, hasNonprintableChars_hexText]
      rfl
    · simpa using hname
  · split_ifs <;> exact ⟨rfl, rfl⟩

def controlCharExports (i : Nat) : Option Export :=
  if i = 0 then some ⟨[0x01], 0x401000⟩ else none

theorem loadExports_printable_controlChar :
    (⟨ascii "exported_function_401000", 0x401000⟩ : Export) ∈ loadExports controlCharExports 5 ∧
      hasNonprintableChars (ascii "exported_function_401000") = false :=
  have renamed : (⟨ascii "exported_function_401000", 0x401000⟩ : Export) ∈
      loadExports controlCharExports 5 := by decide
  ⟨renamed, (loadExports_printable controlCharExports 5 _ renamed).1⟩

end PeFormat
