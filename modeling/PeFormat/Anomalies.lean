import Mathlib.Data.List.Basic

/-!
`scanForAnomalies`: the anomaly scanner, its section checks first. The section holding the
entry point is checked for being the last one, writable or not executable. Each of the first
`getDeclaredNumberOfSections` sections that is loaded is checked against the tables of usual
names, packer names and usual characteristics and for its size and flags, and each pair of
them for a shared name and for overlapping file ranges. A section is known by its position:
`getPeSection i` and `getSection i` are both entry `i`, and `getEpSection`, which is not in the
sources, is the position of the section holding the entry point. The resource, import and
export scans report large resources and objects stretched over several sections, which
`FileFormat` decides; the optional header scan reports a misaligned `SizeOfHeaders`, which
PeLib decides. The `std::cerr` traces are not modelled, and `numToStr` writes decimal digits.
-/
namespace PeFormat

/-! The section flags of the PE format, under PeLib's names; PeLib is not in the sources. -/

def pelibImageScnCntCode : Nat := 0x20

def pelibImageScnCntInitializedData : Nat := 0x40

def pelibImageScnCntUninitializedData : Nat := 0x80

def pelibImageScnLnkInfo : Nat := 0x200

def pelibImageScnMemDiscardable : Nat := 0x2000000

def pelibImageScnMemExecute : Nat := 0x20000000

def pelibImageScnMemRead : Nat := 0x40000000

def pelibImageScnMemWrite : Nat := 0x80000000

def usualSectionNames : List String :=
  [".00cfg", ".apiset", ".arch", ".autoload_text", ".bindat", ".bootdat",
    ".bss", ".BSS", ".buildid", ".CLR_UEF", ".code", ".cormeta",
    ".complua", ".CRT", ".cygwin_dll_common", ".data", ".DATA", ".data1",
    ".data2", ".data3", ".debug", ".debug  $F", ".debug  $P", ".debug  $S",
    ".debug  $T", ".drectve ", ".didat", ".didata", ".edata", ".eh_fram",
    ".export", ".fasm", ".flat", ".gfids", ".giats", ".gljmp",
    ".glue_7t", ".glue_7", ".idata", ".idlsym", ".impdata", ".import",
    ".itext", ".ndata", ".orpc", ".pdata", ".rdata", ".reloc",
    ".rodata", ".rsrc", ".sbss", ".script", ".shared", ".sdata",
    ".srdata", ".stab", ".stabstr", ".sxdata", ".text", ".text0",
    ".text1", ".text2", ".text3", ".textbss", ".tls", ".tls$",
    ".udata", ".vsdata", ".xdata", ".wixburn", ".wpp_sf ", "BSS",
    "CODE", "DATA", "DGROUP", "edata", "idata", "INIT",
    "minATL", "PAGE", "rdata", "sdata", "shared", "Shared",
    "testdata", "text"]

def usualPackerSections : List String :=
  [".aspack", ".adata", "ASPack", ".ASPack", ".boom", ".ccg",
    ".charmve", "BitArts", "DAStub", "!EPack", ".ecode", ".edata",
    ".enigma1", ".enigma2", "FSG!", ".gentee", "kkrunchy", "lz32.dll",
    ".mackt", ".MaskPE", "MEW", ".mnbvcx1", ".mnbvcx2", ".MPRESS1",
    ".MPRESS2", ".neolite", ".neolit", ".nsp1", ".nsp0", ".nsp2",
    "nsp1", "nsp0", "nsp2", ".packed", "pebundle", "PEBundle",
    "PEC2TO", "PECompact2", "PEC2", "pec", "pec1", "pec2",
    "pec3", "pec4", "pec5", "pec6", "PEC2MO", "PELOCKnt",
    ".perplex", "PESHiELD", ".petite", ".pinclie", "ProCrypt", ".RLPack",
    ".rmnet", "RCryptor", ".RPCrypt", ".seau", ".sforce3", ".shrink1",
    ".shrink2", ".shrink3", ".spack", ".svkp", "Themida", ".Themida",
    ".taz", ".tsuarch", ".tsustub", ".packed", "PEPACK!!", ".Upack",
    ".ByDwing", "UPX0", "UPX1", "UPX2", "UPX3", "UPX!",
    ".UPX0", ".UPX1", ".UPX2", ".vmp0", ".vmp1", ".vmp2",
    "VProtect", ".winapi", "WinLicen", "_winzip_", ".WWPACK", ".WWP32",
    ".yP", ".y0da"]

def usualSectionCharacteristics : List (String × Nat) :=
  [(".bss", pelibImageScnCntUninitializedData ||| pelibImageScnMemRead ||| pelibImageScnMemWrite),
    (".cormeta", pelibImageScnLnkInfo),
    (".data", pelibImageScnCntInitializedData ||| pelibImageScnMemRead ||| pelibImageScnMemWrite),
    (".debug", pelibImageScnCntInitializedData ||| pelibImageScnMemRead ||| pelibImageScnMemDiscardable),
    (".drective", pelibImageScnLnkInfo),
    (".edata", pelibImageScnCntInitializedData ||| pelibImageScnMemRead),
    (".idata", pelibImageScnCntInitializedData ||| pelibImageScnMemRead ||| pelibImageScnMemWrite),
    (".idlsym", pelibImageScnLnkInfo),
    (".pdata", pelibImageScnCntInitializedData ||| pelibImageScnMemRead),
    (".rdata", pelibImageScnCntInitializedData ||| pelibImageScnMemRead),
    (".reloc", pelibImageScnCntInitializedData ||| pelibImageScnMemRead ||| pelibImageScnMemDiscardable),
    (".rsrc", pelibImageScnCntInitializedData ||| pelibImageScnMemRead),
    (".sbss", pelibImageScnCntUninitializedData ||| pelibImageScnMemRead ||| pelibImageScnMemWrite),
    (".sdata", pelibImageScnCntInitializedData ||| pelibImageScnMemRead ||| pelibImageScnMemWrite),
    (".srdata", pelibImageScnCntInitializedData ||| pelibImageScnMemRead),
    (".sxdata", pelibImageScnLnkInfo),
    (".text", pelibImageScnCntCode ||| pelibImageScnMemExecute ||| pelibImageScnMemRead),
    (".tls", pelibImageScnCntInitializedData ||| pelibImageScnMemRead ||| pelibImageScnMemWrite),
    (".tls$", pelibImageScnCntInitializedData ||| pelibImageScnMemRead ||| pelibImageScnMemWrite),
    (".vsdata", pelibImageScnCntInitializedData ||| pelibImageScnMemRead ||| pelibImageScnMemWrite),
    (".xdata", pelibImageScnCntInitializedData ||| pelibImageScnMemRead)]

/-- What the scanner reads of a `PeCoffSection`. -/
structure PeCoffSection where
  name : String
  index : Nat
  offset : Nat
  sizeInFile : Nat
  peCoffFlags : Nat
  deriving DecidableEq, Repr

/-- The sections of a file, `getDeclaredNumberOfSections`, and the position of the section
holding the entry point, if one does. -/
structure SectionTable where
  sections : List PeCoffSection
  declared : Nat
  epSection : Option (Fin sections.length)

/-- An entry of `anomalies`: its id and its message. -/
abbrev Anomaly := String × String

def msgName (sec : PeCoffSection) : String :=
  if sec.name = "" then toString sec.index else sec.name

structure Check (α : Type) where
  id : String
  applies : α → Bool
  message : α → String

def Check.run {α : Type} (c : Check α) (a : α) : List Anomaly :=
  if c.applies a then [(c.id, c.message a)] else []

def runChecks {α : Type} (checks : List (Check α)) (a : α) : List Anomaly :=
  checks.flatMap (·.run a)

/-- Where the data of a section ends in the file, as the code computes it. -/
def PeCoffSection.fileEnd (sec : PeCoffSection) : Nat := sec.offset + sec.sizeInFile

def overlapping (sec cmpSec : PeCoffSection) : Bool :=
  (sec.offset ≤ cmpSec.offset && cmpSec.offset < sec.fileEnd) ||
    (cmpSec.offset ≤ sec.offset && sec.offset < cmpSec.fileEnd)

/-- The checks made on each section, in the order of the code. -/
def sectionChecks : List (Check PeCoffSection) :=
  [⟨"unusualSecName", fun sec => sec.name ≠ "" ∧ sec.name ∉ usualSectionNames,
      fun sec => "Unusual section name: " ++ sec.name⟩,
    ⟨"packedSecName", fun sec => sec.name ≠ "" ∧ sec.name ∈ usualPackerSections,
      fun sec => "Packer section name: " ++ sec.name⟩,
    ⟨"unusualSecChar", fun sec => sec.name ≠ "" &&
        match usualSectionCharacteristics.lookup sec.name with
        | some c => c != sec.peCoffFlags
        | none => false,
      fun sec => "Section " ++ sec.name ++ " has unusual characteristics"⟩,
    ⟨"largeSec", fun sec => sec.sizeInFile ≥ 100000000,
      fun sec => "Section " ++ msgName sec ++ " has size over 100MB"⟩,
    ⟨"uninitSecHasData", fun sec => sec.peCoffFlags &&& pelibImageScnCntUninitializedData ≠ 0 ∧
        (sec.offset ≠ 0 ∨ sec.sizeInFile ≠ 0),
      fun sec => "Section " ++ msgName sec ++ " is marked uninitialized but contains data"⟩,
    ⟨"noRawDataSec", fun sec => sec.sizeInFile = 0,
      fun sec => "Section " ++ msgName sec ++ " has zero SizeOfRawData"⟩]

/-- The checks made on a section and each later one, in the order of the code. -/
def pairChecks : List (Check (PeCoffSection × PeCoffSection)) :=
  [⟨"duplSecNames", fun p => p.1.name ≠ "" ∧ p.1.name = p.2.name,
      fun p => "Sections " ++ toString p.1.index ++ " and " ++ toString p.2.index ++
        " have the same name " ++ p.1.name⟩,
    ⟨"overlappingSecs", fun p => overlapping p.1 p.2,
      fun p => "Sections " ++ msgName p.1 ++ " and " ++ msgName p.2 ++ " overlap"⟩]

def epAnomalies (t : SectionTable) : List Anomaly :=
  match t.epSection with
  | none => [("epOutsideSecs", "Entry point is outside of mapped sections")]
  | some p =>
    let epSec := t.sections.get p
    (if t.declared ≠ 0 ∧ p.val = t.declared - 1 then
      [("epInLastSec", "Entry point in last section")] else []) ++
    (if epSec.peCoffFlags &&& pelibImageScnMemWrite ≠ 0 then
      [("epInWritableSec", "Entry point in writable section")] else []) ++
    (if epSec.peCoffFlags &&& pelibImageScnMemExecute = 0 then
      [("epInNonExecSec", "Entry point in nonexecutable section")] else [])

def scanForSectionAnomalies (t : SectionTable) : List Anomaly :=
  epAnomalies t ++ (List.range t.declared).flatMap fun i =>
    match t.sections[i]? with
    | none => []
    | some sec =>
      runChecks sectionChecks sec ++
        (List.range' (i + 1) (t.declared - (i + 1))).flatMap fun j =>
          match t.sections[j]? with
          | none => []
          | some cmpSec => runChecks pairChecks (sec, cmpSec)

/-! ## The loops visit each section and each pair once -/

def withRest {α : Type} : List α → List (α × List α)
  | [] => []
  | x :: xs => (x, xs) :: withRest xs

def pairsOf {α : Type} : List α → List (α × α)
  | [] => []
  | x :: xs => xs.map (x, ·) ++ pairsOf xs

/-- The checks of `scanForSectionAnomalies` on a list of sections: each section, then each
pair of it and a later one. -/
def scanSections (secs : List PeCoffSection) : List Anomaly :=
  (withRest secs).flatMap fun p =>
    runChecks sectionChecks p.1 ++ p.2.flatMap fun cmpSec => runChecks pairChecks (p.1, cmpSec)

section Loops

variable {α β : Type}

theorem flatMap_range'_eq_withRest {xs : List α} {g : α → List α → List β}
    {body : Nat → List β} : ∀ c a, xs.length ≤ a + c →
      (∀ i, a ≤ i → i < a + c →
        body i = match xs[i]? with
          | none => []
          | some x => g x (xs.drop (i + 1))) →
      (List.range' a c).flatMap body = (withRest (xs.drop a)).flatMap fun p => g p.1 p.2 := by
  intro c
  induction c with
  | zero =>
    intro a hlen _
    rw [List.drop_eq_nil_of_le (by omega : xs.length ≤ a)]
    rfl
  | succ c ih =>
    intro a hlen hbody
    rw [List.range'_succ, List.flatMap_cons, hbody a le_rfl (by omega),
      ih (a + 1) (by omega) fun i h1 h2 => hbody i (by omega) (by omega)]
    by_cases ha : a < xs.length
    · rw [List.getElem?_eq_getElem ha, List.drop_eq_getElem_cons ha]
      rfl
    · rw [List.getElem?_eq_none (by omega), List.drop_eq_nil_of_le (by omega : xs.length ≤ a),
        List.drop_eq_nil_of_le (by omega : xs.length ≤ a + 1)]
      rfl

theorem flatMap_withRest_fst (f : α → List β) (xs : List α) :
    ((withRest xs).flatMap fun p => f p.1) = xs.flatMap f := by
  induction xs with
  | nil => rfl
  | cons x xs ih => rw [withRest, List.flatMap_cons, ih, List.flatMap_cons]

end Loops

theorem scanForSectionAnomalies_eq (t : SectionTable) :
    scanForSectionAnomalies t = epAnomalies t ++ scanSections (t.sections.take t.declared) := by
  set L := t.sections.take t.declared
  have hget : ∀ i < t.declared, t.sections[i]? = L[i]? :=
    fun i hi => (List.getElem?_take_of_lt hi).symm
  have hlen : L.length ≤ t.declared := List.length_take_le _ _
  have inner : ∀ i < t.declared, ∀ sec,
      ((List.range' (i + 1) (t.declared - (i + 1))).flatMap fun j =>
        match t.sections[j]? with
        | none => []
        | some cmpSec => runChecks pairChecks (sec, cmpSec)) =
      (L.drop (i + 1)).flatMap fun cmpSec => runChecks pairChecks (sec, cmpSec) := by
    intro i hi sec
    rw [← flatMap_withRest_fst _ (L.drop (i + 1))]
    exact @flatMap_range'_eq_withRest _ _ L (fun cmpSec _ => runChecks pairChecks (sec, cmpSec)) _
      (t.declared - (i + 1)) (i + 1) (by omega) fun j _ hj => by
        dsimp only
        rw [hget j (by omega)]
        cases L[j]? <;> rfl
  rw [scanForSectionAnomalies, scanSections, List.range_eq_range']
  congr 1
  exact @flatMap_range'_eq_withRest _ _ L (fun sec rest =>
      runChecks sectionChecks sec ++ rest.flatMap fun cmpSec => runChecks pairChecks (sec, cmpSec))
    _ _ 0 (by omega) fun i _ hi => by
      dsimp only
      rw [hget i (by omega)]
      cases L[i]? with
      | none => rfl
      | some sec => exact congrArg _ (inner i (by omega) sec)

/-! ## How many anomalies of each kind -/

def epIds : List String := ["epOutsideSecs", "epInLastSec", "epInWritableSec", "epInNonExecSec"]

theorem sectionIds_nodup : (sectionChecks.map (·.id)).Nodup := by decide

theorem pairIds_nodup : (pairChecks.map (·.id)).Nodup := by decide

theorem sectionIds_fresh : ∀ c ∈ sectionChecks, c.id ∉ pairChecks.map (·.id) ∧ c.id ∉ epIds := by
  decide

theorem pairIds_fresh : ∀ c ∈ pairChecks, c.id ∉ sectionChecks.map (·.id) ∧ c.id ∉ epIds := by
  decide

section Counts

variable {α : Type}

theorem countP_run (c : Check α) (a : α) (id : String) :
    (c.run a).countP (·.1 == id) = if c.applies a ∧ c.id = id then 1 else 0 := by
  unfold Check.run
  by_cases h : c.applies a <;> by_cases e : c.id = id <;> simp [h, e]

theorem countP_runChecks_of_not_mem {checks : List (Check α)} {id : String}
    (h : id ∉ checks.map (·.id)) (a : α) : (runChecks checks a).countP (·.1 == id) = 0 := by
  induction checks with
  | nil => rfl
  | cons c cs ih =>
    simp only [List.map_cons, List.mem_cons, not_or] at h
    rw [runChecks, List.flatMap_cons, List.countP_append, countP_run,
      if_neg fun h' => h.1 h'.2.symm, ← runChecks, ih h.2]

theorem countP_runChecks {checks : List (Check α)} (hnd : (checks.map (·.id)).Nodup)
    {c : Check α} (hc : c ∈ checks) (a : α) :
    (runChecks checks a).countP (·.1 == c.id) = if c.applies a then 1 else 0 := by
  induction checks with
  | nil => cases hc
  | cons d ds ih =>
    rw [List.map_cons, List.nodup_cons] at hnd
    rw [runChecks, List.flatMap_cons, List.countP_append, countP_run]
    rcases List.mem_cons.mp hc with rfl | hc
    · rw [← runChecks, countP_runChecks_of_not_mem hnd.1]
      simp
    · have hne : d.id ≠ c.id := fun e => hnd.1 (e ▸ List.mem_map_of_mem _ hc)
      rw [← runChecks, ih hnd.2 hc]
      simp [hne]

theorem countP_flatMap_runChecks {checks : List (Check α)} (hnd : (checks.map (·.id)).Nodup)
    {c : Check α} (hc : c ∈ checks) (xs : List α) :
    (xs.flatMap (runChecks checks)).countP (·.1 == c.id) = xs.countP c.applies := by
  induction xs with
  | nil => rfl
  | cons x xs ih =>
    rw [List.flatMap_cons, List.countP_append, countP_runChecks hnd hc, ih, List.countP_cons]
    omega

theorem countP_flatMap_runChecks_of_not_mem {checks : List (Check α)} {id : String}
    (h : id ∉ checks.map (·.id)) (xs : List α) :
    (xs.flatMap (runChecks checks)).countP (·.1 == id) = 0 := by
  induction xs with
  | nil => rfl
  | cons x xs ih =>
    rw [List.flatMap_cons, List.countP_append, countP_runChecks_of_not_mem h, ih]

end Counts

theorem scanSections_cons (sec : PeCoffSection) (rest : List PeCoffSection) :
    scanSections (sec :: rest) = runChecks sectionChecks sec ++
      (rest.map (sec, ·)).flatMap (runChecks pairChecks) ++ scanSections rest := by
  rw [scanSections, withRest, List.flatMap_cons, List.flatMap_map]
  rfl

theorem countP_scanSections_section {c : Check PeCoffSection} (hc : c ∈ sectionChecks)
    (secs : List PeCoffSection) : (scanSections secs).countP (·.1 == c.id) = secs.countP c.applies := by
  induction secs with
  | nil => rfl
  | cons sec rest ih =>
    rw [scanSections_cons, List.countP_append, List.countP_append,
      countP_runChecks sectionIds_nodup hc,
      countP_flatMap_runChecks_of_not_mem (sectionIds_fresh c hc).1, ih, List.countP_cons]
    omega

theorem countP_scanSections_pair {c : Check (PeCoffSection × PeCoffSection)} (hc : c ∈ pairChecks)
    (secs : List PeCoffSection) :
    (scanSections secs).countP (·.1 == c.id) = (pairsOf secs).countP c.applies := by
  induction secs with
  | nil => rfl
  | cons sec rest ih =>
    rw [scanSections_cons, List.countP_append, List.countP_append,
      countP_runChecks_of_not_mem (pairIds_fresh c hc).1, countP_flatMap_runChecks pairIds_nodup hc,
      ih, pairsOf, List.countP_append]
    omega

section Ids

variable {α : Type}

theorem id_mem_of_mem_runChecks {checks : List (Check α)} {a : α} {x : Anomaly}
    (h : x ∈ runChecks checks a) : x.1 ∈ checks.map (·.id) := by
  obtain ⟨c, hc, hx⟩ := List.mem_flatMap.mp h
  unfold Check.run at hx
  split_ifs at hx
  · rw [List.mem_singleton.mp hx]
    exact List.mem_map_of_mem _ hc
  · cases hx

theorem countP_eq_zero_of_ids {l : List Anomaly} {ids : List String}
    (h : ∀ x ∈ l, x.1 ∈ ids) {id : String} (hid : id ∉ ids) : l.countP (·.1 == id) = 0 :=
  List.countP_eq_zero.mpr fun x hx e => hid (beq_iff_eq.mp e ▸ h x hx)

end Ids

theorem id_mem_of_mem_epAnomalies {t : SectionTable} {x : Anomaly} (h : x ∈ epAnomalies t) :
    x.1 ∈ epIds := by
  unfold epAnomalies at h
  split at h
  · simp_all [epIds]
  · simp only [List.mem_append] at h
    rcases h with (h | h) | h <;> split_ifs at h <;> simp_all [epIds]

theorem countP_epAnomalies (t : SectionTable) {id : String} (h : id ∉ epIds) :
    (epAnomalies t).countP (·.1 == id) = 0 :=
  countP_eq_zero_of_ids (fun _ hx => id_mem_of_mem_epAnomalies hx) h

theorem scanForSectionAnomalies_counts (t : SectionTable) :
    (∀ c ∈ sectionChecks, (scanForSectionAnomalies t).countP (·.1 == c.id) =
      (t.sections.take t.declared).countP c.applies) ∧
    ∀ c ∈ pairChecks, (scanForSectionAnomalies t).countP (·.1 == c.id) =
      (pairsOf (t.sections.take t.declared)).countP c.applies := by
  rw [scanForSectionAnomalies_eq]
  refine ⟨fun c hc => ?_, fun c hc => ?_⟩
  · rw [List.countP_append, countP_epAnomalies t (sectionIds_fresh c hc).2,
      countP_scanSections_section hc, Nat.zero_add]
  · rw [List.countP_append, countP_epAnomalies t (pairIds_fresh c hc).2,
      countP_scanSections_pair hc, Nat.zero_add]

/-! ## Overlapping sections -/

def SharesByte (s u : PeCoffSection) : Prop :=
  ∃ x, s.offset ≤ x ∧ x < s.fileEnd ∧ u.offset ≤ x ∧ x < u.fileEnd

theorem sharesByte_iff {s u : PeCoffSection} : SharesByte s u ↔
    s.offset < s.fileEnd ∧ u.offset < u.fileEnd ∧ s.offset < u.fileEnd ∧ u.offset < s.fileEnd := by
  constructor
  · rintro ⟨x, h1, h2, h3, h4⟩
    omega
  · rintro ⟨h1, h2, h3, h4⟩
    exact ⟨max s.offset u.offset, by omega, by omega, by omega, by omega⟩

instance (s u : PeCoffSection) : Decidable (SharesByte s u) :=
  decidable_of_iff _ sharesByte_iff.symm

def EmptyInside (s u : PeCoffSection) : Prop :=
  s.sizeInFile = 0 ∧ u.offset ≤ s.offset ∧ s.offset < u.fileEnd

instance (s u : PeCoffSection) : Decidable (EmptyInside s u) :=
  inferInstanceAs (Decidable (_ ∧ _ ∧ _))

theorem overlapping_iff {s u : PeCoffSection} :
    overlapping s u = true ↔ SharesByte s u ∨ EmptyInside s u ∨ EmptyInside u s := by
  rw [sharesByte_iff]
  simp only [overlapping, EmptyInside, PeCoffSection.fileEnd, Bool.or_eq_true, Bool.and_eq_true,
    decide_eq_true_eq]
  omega

theorem scanForSectionAnomalies_overlaps (t : SectionTable) :
    (scanForSectionAnomalies t).countP (·.1 == "overlappingSecs") =
      (pairsOf (t.sections.take t.declared)).countP fun p =>
        SharesByte p.1 p.2 ∨ EmptyInside p.1 p.2 ∨ EmptyInside p.2 p.1 := by
  have hc : (⟨"overlappingSecs", fun p => overlapping p.1 p.2,
      fun p => "Sections " ++ msgName p.1 ++ " and " ++ msgName p.2 ++ " overlap"⟩ :
        Check (PeCoffSection × PeCoffSection)) ∈ pairChecks := by
    simp [pairChecks]
  rw [scanForSectionAnomalies_eq, List.countP_append, countP_epAnomalies t (by decide),
    Nat.zero_add, countP_scanSections_pair hc]
  exact List.countP_congr fun p _ => by simpa using overlapping_iff

/-! ## The other scans -/

/-- What the other scans ask `FileFormat`, which is not in the sources. -/
structure FileLayout where
  getAddressFromOffset : Nat → Option Nat
  isObjectStretchedOverSections : Nat → Nat → Bool

/-- `getAddressFromOffset(addr, offset) && isObjectStretchedOverSections(addr, size)`. -/
def FileLayout.stretched (f : FileLayout) (offset size : Nat) : Bool :=
  match f.getAddressFromOffset offset with
  | some addr => f.isObjectStretchedOverSections addr size
  | none => false

/-- What the resource scan reads of a `Resource`: `getNameId`, `getOffset` and
`getSizeInFile`, whose class is not in the sources. -/
structure ScannedResource where
  nameId : Option Nat
  offset : Nat
  sizeInFile : Nat
  deriving DecidableEq, Repr

def resourceMsgName (res : ScannedResource) : String :=
  match res.nameId with
  | some nameId => toString nameId
  | none => "<unknown>"

def resourceChecks (f : FileLayout) : List (Check ScannedResource) :=
  [⟨"largeRes", fun res => res.sizeInFile ≥ 100000000,
      fun res => "Resource " ++ resourceMsgName res ++ " has size over 100MB"⟩,
    ⟨"stretchedRes", fun res => f.stretched res.offset res.sizeInFile,
      fun res => "Resource " ++ resourceMsgName res ++ " is stretched over multiple sections"⟩]

/-- The resource table, when there is one: `getResource i` for each index, which may find
nothing. -/
def scanForResourceAnomalies (f : FileLayout)
    (resourceTable : Option (List (Option ScannedResource))) :
    List Anomaly :=
  match resourceTable with
  | none => []
  | some resources => resources.flatMap fun res =>
    match res with
    | none => []
    | some res => runChecks (resourceChecks f) res

structure NamedEntry where
  name : String
  ordinalNumber : Option Nat
  deriving DecidableEq, Repr

def entryMsgName : Option NamedEntry → String
  | none => "<unknown>"
  | some entry =>
    if entry.name = "" then
      match entry.ordinalNumber with
      | some ordNum => toString ordNum
      | none => "<unknown>"
    else entry.name

structure OccupiedRange where
  start : Nat
  size : Nat
  deriving DecidableEq, Repr

/-- The check of `scanForImportAnomalies` and `scanForExportAnomalies`: a range of the
directory stretched over sections, named by the entry at its address. -/
def stretchedCheck (f : FileLayout) (id kind : String) (getEntry : Nat → Option NamedEntry) :
    Check OccupiedRange :=
  ⟨id, fun range => f.stretched range.start range.size,
    fun range => kind ++ " " ++ entryMsgName ((f.getAddressFromOffset range.start).bind getEntry) ++
      " is stretched over multiple sections"⟩

def scanForImportAnomalies (f : FileLayout) (getImport : Nat → Option NamedEntry)
    (importRanges : List OccupiedRange) : List Anomaly :=
  importRanges.flatMap (runChecks [stretchedCheck f "stretchedImp" "Import" getImport])

def scanForExportAnomalies (f : FileLayout) (getExport : Nat → Option NamedEntry)
    (exportRanges : List OccupiedRange) : List Anomaly :=
  exportRanges.flatMap (runChecks [stretchedCheck f "stretchedExp" "Export" getExport])

def optHeaderChecks : List (Check Bool) :=
  [⟨"sizeOfHeadersNotAligned", (!·),
    fun _ => "SizeOfHeaders is not aligned to multiple of FileAlignment"⟩]

/-- `isSizeOfHeaderMultipleOfFileAlignment` is PeLib's test. -/
def scanForOptHeaderAnomalies (sizeOfHeadersAligned : Bool) : List Anomaly :=
  runChecks optHeaderChecks sizeOfHeadersAligned

/-- What `scanForAnomalies` reads. -/
structure AnomalyInputs where
  sectionTable : SectionTable
  layout : FileLayout
  resourceTable : Option (List (Option ScannedResource))
  getImport : Nat → Option NamedEntry
  importRanges : List OccupiedRange
  getExport : Nat → Option NamedEntry
  exportRanges : List OccupiedRange
  sizeOfHeadersAligned : Bool

def scanForAnomalies (x : AnomalyInputs) : List Anomaly :=
  scanForSectionAnomalies x.sectionTable ++ scanForResourceAnomalies x.layout x.resourceTable ++
    scanForImportAnomalies x.layout x.getImport x.importRanges ++
    scanForExportAnomalies x.layout x.getExport x.exportRanges ++
    scanForOptHeaderAnomalies x.sizeOfHeadersAligned

/-! ## Each scan reports its own ids -/

def sectionScanIds : List String :=
  epIds ++ sectionChecks.map (·.id) ++ pairChecks.map (·.id)

theorem id_mem_of_mem_scanSections {secs : List PeCoffSection} {x : Anomaly}
    (h : x ∈ scanSections secs) : x.1 ∈ sectionChecks.map (·.id) ++ pairChecks.map (·.id) := by
  obtain ⟨p, -, hx⟩ := List.mem_flatMap.mp h
  rcases List.mem_append.mp hx with hx | hx
  · exact List.mem_append_left _ (id_mem_of_mem_runChecks hx)
  · obtain ⟨_, -, hx⟩ := List.mem_flatMap.mp hx
    exact List.mem_append_right _ (id_mem_of_mem_runChecks hx)

theorem id_mem_of_mem_scanForSectionAnomalies {t : SectionTable} {x : Anomaly}
    (h : x ∈ scanForSectionAnomalies t) : x.1 ∈ sectionScanIds := by
  rw [scanForSectionAnomalies_eq] at h
  rcases List.mem_append.mp h with h | h
  · exact List.mem_append_left _ (List.mem_append_left _ (id_mem_of_mem_epAnomalies h))
  · rw [sectionScanIds, List.append_assoc]
    exact List.mem_append_right _ (id_mem_of_mem_scanSections h)

theorem scanForResourceAnomalies_eq (f : FileLayout) (resources : List (Option ScannedResource)) :
    scanForResourceAnomalies f (some resources) =
      (resources.filterMap id).flatMap (runChecks (resourceChecks f)) := by
  induction resources with
  | nil => rfl
  | cons res resources ih =>
    cases res <;> simp_all [scanForResourceAnomalies]

theorem id_mem_of_mem_flatMap_runChecks {α : Type} {checks : List (Check α)} {xs : List α}
    {x : Anomaly} (h : x ∈ xs.flatMap (runChecks checks)) : x.1 ∈ checks.map (·.id) := by
  obtain ⟨_, -, hx⟩ := List.mem_flatMap.mp h
  exact id_mem_of_mem_runChecks hx

theorem resourceIds (f : FileLayout) :
    (resourceChecks f).map (·.id) = ["largeRes", "stretchedRes"] := rfl

theorem id_mem_of_mem_scanForResourceAnomalies {f : FileLayout}
    {resourceTable : Option (List (Option ScannedResource))} {x : Anomaly}
    (h : x ∈ scanForResourceAnomalies f resourceTable) : x.1 ∈ ["largeRes", "stretchedRes"] := by
  cases resourceTable with
  | none => cases h
  | some resources =>
    rw [scanForResourceAnomalies_eq] at h
    exact resourceIds f ▸ id_mem_of_mem_flatMap_runChecks h

theorem countP_stretched (f : FileLayout) (id kind : String) (getEntry : Nat → Option NamedEntry)
    (ranges : List OccupiedRange) (id' : String) :
    (ranges.flatMap (runChecks [stretchedCheck f id kind getEntry])).countP (·.1 == id') =
      if id = id' then ranges.countP fun range => f.stretched range.start range.size else 0 := by
  split_ifs with h
  · subst h
    exact countP_flatMap_runChecks (c := stretchedCheck f id kind getEntry) (by simp)
      (List.mem_singleton_self _) ranges
  · exact countP_eq_zero_of_ids (fun x hx => id_mem_of_mem_flatMap_runChecks hx)
      (by simpa [stretchedCheck] using Ne.symm h)

theorem countP_scanForOptHeaderAnomalies (sizeOfHeadersAligned : Bool) (id : String) :
    (scanForOptHeaderAnomalies sizeOfHeadersAligned).countP (·.1 == id) =
      if id = "sizeOfHeadersNotAligned" ∧ !sizeOfHeadersAligned then 1 else 0 := by
  by_cases h : id = "sizeOfHeadersNotAligned"
  · subst h
    cases sizeOfHeadersAligned <;> rfl
  · cases sizeOfHeadersAligned <;>
      simp [scanForOptHeaderAnomalies, runChecks, optHeaderChecks, Check.run, h, Ne.symm h]

theorem countP_scanForResourceAnomalies (f : FileLayout)
    (resourceTable : Option (List (Option ScannedResource))) {c : Check ScannedResource}
    (hc : c ∈ resourceChecks f) :
    (scanForResourceAnomalies f resourceTable).countP (·.1 == c.id) =
      ((resourceTable.getD []).filterMap id).countP c.applies := by
  cases resourceTable with
  | none => rfl
  | some resources =>
    rw [scanForResourceAnomalies_eq]
    exact countP_flatMap_runChecks (by rw [resourceIds]; decide) hc _

theorem scanForAnomalies_counts (x : AnomalyInputs) :
    (∀ id ∈ sectionScanIds, (scanForAnomalies x).countP (·.1 == id) =
      (scanForSectionAnomalies x.sectionTable).countP (·.1 == id)) ∧
    (∀ c ∈ resourceChecks x.layout, (scanForAnomalies x).countP (·.1 == c.id) =
      ((x.resourceTable.getD []).filterMap id).countP c.applies) ∧
    (scanForAnomalies x).countP (·.1 == "stretchedImp") =
      x.importRanges.countP (fun range => x.layout.stretched range.start range.size) ∧
    (scanForAnomalies x).countP (·.1 == "stretchedExp") =
      x.exportRanges.countP (fun range => x.layout.stretched range.start range.size) ∧
    (scanForAnomalies x).countP (·.1 == "sizeOfHeadersNotAligned") =
      if x.sizeOfHeadersAligned then 0 else 1 := by
  have resZero {id : String} (h : id ∉ ["largeRes", "stretchedRes"]) :=
    countP_eq_zero_of_ids (fun _ hx => id_mem_of_mem_scanForResourceAnomalies hx) h
      (l := scanForResourceAnomalies x.layout x.resourceTable)
  have secZero {id : String} (h : id ∉ sectionScanIds) :=
    countP_eq_zero_of_ids (fun _ hx => id_mem_of_mem_scanForSectionAnomalies hx) h
      (l := scanForSectionAnomalies x.sectionTable)
  simp only [scanForAnomalies, List.countP_append, scanForImportAnomalies, scanForExportAnomalies,
    countP_stretched, countP_scanForOptHeaderAnomalies]
  refine ⟨fun id hid => ?_, fun c hc => ?_, ?_, ?_, ?_⟩
  · obtain ⟨large, stretched, imp, exp, headers⟩ : id ≠ "largeRes" ∧ id ≠ "stretchedRes" ∧
        id ≠ "stretchedImp" ∧ id ≠ "stretchedExp" ∧ id ≠ "sizeOfHeadersNotAligned" := by
      revert id; decide
    rw [resZero (by simp [large, stretched])]
    simp [Ne.symm imp, Ne.symm exp, headers]
  · have hid : c.id = "largeRes" ∨ c.id = "stretchedRes" := by
      have := List.mem_map_of_mem (·.id) hc
      rw [resourceIds] at this
      simpa using this
    rw [countP_scanForResourceAnomalies x.layout x.resourceTable hc]
    rcases hid with h | h <;> rw [h, secZero (by decide)] <;> simp
  · rw [secZero (by decide), resZero (by decide)]
    simp
  · rw [secZero (by decide), resZero (by decide)]
    simp
  · rw [secZero (by decide), resZero (by decide)]
    cases x.sizeOfHeadersAligned <;> simp

end PeFormat
