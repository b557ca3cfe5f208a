import PeFormat.Tls

/-!
The Visual Basic tables of `loadVisualBasicHeader`: `parseVisualBasicExternTable`, and
`parseVisualBasicObjects` with its loop over each object's method names. Each is a
`for (i = 0; i < n; i++)` over records of the file that ends at the first record not wholly
in the file (`break`) and skips a record it cannot follow (`continue`). `getBytes` followed
by the size check is `getXBytesOffset`. A record's size is the sum of its fields' sizes, as
`structureSize()` computes it: an extern entry and its data are two `std::uint32_t` each, a
public object descriptor twelve. `readNullTerminatedAscii` and the value of
`VBExternTableEntryType::external` are not in the sources and are parameters.

The loops are proved to keep what their bodies make of the records that lie in the file,
so the count a file declares never takes a parser past its end. The header's own address is
modelled too: it is computed in `int`, so an operand of `0x80000000` or more is
sign-extended to 64 bits.
-/
namespace PeFormat

structure VisualBasicExtern where
  moduleName : Bytes
  apiName : Bytes
  deriving DecidableEq, Repr

structure VisualBasicObject where
  name : Bytes
  methods : List Bytes
  deriving DecidableEq, Repr

/-- What the Visual Basic parsers read besides the image: the string
`readNullTerminatedAscii` gives at a file offset, with `VB_MAX_STRING_LEN` and
`failOnExceed` as the parsers pass them, and `VBExternTableEntryType::external`. -/
structure VisualBasicReads where
  readNullTerminatedAscii : Nat → Bytes
  externalType : Nat

section Parsers

variable (img : Image) (vb : VisualBasicReads)

def readNameAt (addr : Nat) : Bytes :=
  match img.offsetFromAddress addr with
  | some o => vb.readNullTerminatedAscii o
  | none => []

/-- The body of the loop of `parseVisualBasicExternTable` after the entry is read; `none`
is a `continue` or an entry with neither name. -/
def readExtern (entry : Bytes) : Option VisualBasicExtern :=
  if readUInt32 entry 0 ≠ vb.externalType then none
  else
    match img.offsetFromAddress (readUInt32 entry 4) with
    | none => none
    | some vbExternEntryDataOffset =>
      match img.getXBytesOffset vbExternEntryDataOffset 8 with
      | none => none
      | some entryData =>
        let moduleName := readNameAt img vb (readUInt32 entryData 0)
        let apiName := readNameAt img vb (readUInt32 entryData 4)
        if !moduleName.isEmpty || !apiName.isEmpty then some ⟨moduleName, apiName⟩ else none

/-- The externs `parseVisualBasicExternTable` adds, in order. -/
def parseVisualBasicExternTable (structureOffset nEntries : Nat) : List VisualBasicExtern :=
  tableLoop (fun i => img.getXBytesOffset (structureOffset + i * 8) 8) (readExtern img vb) 0
    nEntries

/-- The body of the method loop after the slot is read. -/
def readMethodName (methodNameAddr : Nat) : Option Bytes :=
  match img.offsetFromAddress methodNameAddr with
  | none => none
  | some methodNameOffset =>
    let methodName := vb.readNullTerminatedAscii methodNameOffset
    if !methodName.isEmpty then some methodName else none

/-- The method loop of `parseVisualBasicObjects`. A slot is read as the host's
`std::uint32_t` and swapped when the file is not little endian: on a little-endian host,
in the file's byte order. -/
def readMethods (e : Endianness) (methodAddrOffset nMethods : Nat) : List Bytes :=
  tableLoop (fun mIdx => img.getXByteOffset (methodAddrOffset + mIdx * 4) 4 e)
    (readMethodName img vb) 0 nMethods

/-- The body of the loop of `parseVisualBasicObjects` after the descriptor is read: the
name is its seventh field, the method count and the method array its eighth and ninth. -/
def readObject (e : Endianness) (descriptor : Bytes) : Option VisualBasicObject :=
  match img.offsetFromAddress (readUInt32 descriptor 24) with
  | none => none
  | some objectNameOffset =>
    let objectName := vb.readNullTerminatedAscii objectNameOffset
    let methods :=
      match img.offsetFromAddress (readUInt32 descriptor 32) with
      | some methodAddrOffset => readMethods img vb e methodAddrOffset (readUInt32 descriptor 28)
      | none => []
    if !objectName.isEmpty || methods.length > 0 then some ⟨objectName, methods⟩ else none

/-- The objects `parseVisualBasicObjects` adds, in order. -/
def parseVisualBasicObjects (e : Endianness) (structureOffset nObjects : Nat) :
    List VisualBasicObject :=
  tableLoop (fun i => img.getXBytesOffset (structureOffset + i * 48) 48) (readObject img vb e) 0
    nObjects

/-! ## The tables keep the records in the file -/

theorem readMethods_eq (e : Endianness) (methodAddrOffset nMethods : Nat) :
    readMethods img vb e methodAddrOffset nMethods =
      ((img.records methodAddrOffset 4 nMethods).map (bytesValue e)).filterMap
        (readMethodName img vb) :=
  tableLoop_records img (by decide) (fun _ => rfl) _ _

theorem parseVisualBasicExternTable_eq (structureOffset nEntries : Nat) :
    parseVisualBasicExternTable img vb structureOffset nEntries =
      (img.records structureOffset 8 nEntries).filterMap (readExtern img vb) :=
  tableLoop_getXBytesOffset img (by decide) _ _ _

def describedObject (e : Endianness) (descriptor : Bytes) : Option VisualBasicObject :=
  (img.offsetFromAddress (readUInt32 descriptor 24)).bind fun objectNameOffset =>
    let objectName := vb.readNullTerminatedAscii objectNameOffset
    let methods := ((img.offsetFromAddress (readUInt32 descriptor 32)).map fun methodAddrOffset =>
      ((img.records methodAddrOffset 4 (readUInt32 descriptor 28)).map (bytesValue e)).filterMap
        (readMethodName img vb)).getD []
    if objectName = [] ∧ methods = [] then none else some ⟨objectName, methods⟩

theorem readObject_eq_describedObject (e : Endianness) (descriptor : Bytes) :
    readObject img vb e descriptor = describedObject img vb e descriptor := by
  simp only [readObject, describedObject, readMethods_eq]
  cases img.offsetFromAddress (readUInt32 descriptor 24) with
  | none => rfl
  | some objectNameOffset =>
    cases img.offsetFromAddress (readUInt32 descriptor 32) <;>
      simp only [Option.some_bind, Option.map_some', Option.map_none', Option.getD_some,
        Option.getD_none, Bool.or_eq_true, Bool.not_eq_true', Bool.eq_false_iff, ne_eq,
        List.isEmpty_iff, gt_iff_lt, List.length_pos, decide_eq_true_eq, ← not_and_or, ite_not]

theorem parseVisualBasicObjects_eq (e : Endianness) (structureOffset nObjects : Nat) :
    parseVisualBasicObjects img vb e structureOffset nObjects =
      (img.records structureOffset 48 nObjects).filterMap (describedObject img vb e) := by
  rw [parseVisualBasicObjects, tableLoop_getXBytesOffset img (by decide)]
  exact congrArg (List.filterMap · _) (funext (readObject_eq_describedObject img vb e))

theorem visualBasicTables_bounded (e : Endianness) (externOffset nEntries objectOffset nObjects : Nat) :
    (parseVisualBasicExternTable img vb externOffset nEntries).length ≤
        min nEntries ((img.bytes.length - externOffset) / 8) ∧
      (parseVisualBasicObjects img vb e objectOffset nObjects).length ≤
        min nObjects ((img.bytes.length - objectOffset) / 48) ∧
      ∀ methodAddrOffset nMethods, (readMethods img vb e methodAddrOffset nMethods).length ≤
        min nMethods ((img.bytes.length - methodAddrOffset) / 4) := by
  refine ⟨?_, ?_, fun mo nm => ?_⟩
  · rw [parseVisualBasicExternTable_eq]
    exact (List.length_filterMap_le _ _).trans (length_records_le ..)
  · rw [parseVisualBasicObjects_eq]
    exact (List.length_filterMap_le _ _).trans (length_records_le ..)
  · rw [readMethods_eq]
    exact (List.length_filterMap_le _ _).trans ((List.length_map ..).le.trans (length_records_le ..))

end Parsers

/-! ## The header address is sign-extended -/

/-- The address of the header, from the first instruction `PUSH <vbHeaderAddress>`. The
bytes are promoted to `int`, so the operand is a 32-bit signed value (a shift is taken
modulo 2^32, as C++20 defines it), and assigning it to `unsigned long long` sign-extends
it. -/
def vbHeaderAddress : Bytes → Option Nat
  | [opcode, b1, b2, b3, b4] =>
    if opcode ≠ 0x68 then none
    else
      let operand : BitVec 32 :=
        .ofNat 32 (b4.toNat <<< 24 ||| b3.toNat <<< 16 ||| b2.toNat <<< 8 ||| b1.toNat)
      some (operand.signExtend 64).toNat
  | _ => none

theorem shiftLeft_or_eq_add (a : Nat) {b i : Nat} (hb : b < 2 ^ i) :
    a <<< i ||| b = 2 ^ i * a + b := by
  apply Nat.eq_of_testBit_eq
  intro j
  rw [Nat.testBit_or, Nat.testBit_shiftLeft, Nat.testBit_mul_pow_two_add a hb]
  by_cases hj : j < i
  · simp [hj]
  · have : b < 2 ^ j := lt_of_lt_of_le hb (Nat.pow_le_pow_right (by decide) (by omega))
    simp [hj, Nat.testBit_lt_two_pow this, Nat.le_of_not_lt hj]

theorem vbHeaderAddress_push (b1 b2 b3 b4 : UInt8) :
    vbHeaderAddress [0x68, b1, b2, b3, b4] =
      some (if leValue [b1, b2, b3, b4] < 2 ^ 31 then leValue [b1, b2, b3, b4]
        else leValue [b1, b2, b3, b4] + (2 ^ 64 - 2 ^ 32)) := by
  have h1 : b1.toNat < 2 ^ 8 := b1.val.isLt
  have h2 : b2.toNat < 2 ^ 8 := b2.val.isLt
  have h3 : b3.toNat < 2 ^ 8 := b3.val.isLt
  have h4 : b4.toNat < 2 ^ 8 := b4.val.isLt
  have operand : b4.toNat <<< 24 ||| b3.toNat <<< 16 ||| b2.toNat <<< 8 ||| b1.toNat =
      leValue [b1, b2, b3, b4] := by
    rw [Nat.or_assoc, Nat.or_assoc, shiftLeft_or_eq_add _ (by omega : b1.toNat < 2 ^ 8),
      shiftLeft_or_eq_add _ (by omega : 2 ^ 8 * b2.toNat + b1.toNat < 2 ^ 16),
      shiftLeft_or_eq_add _ (by omega : 2 ^ 16 * b3.toNat + (2 ^ 8 * b2.toNat + b1.toNat) < 2 ^ 24)]
    simp only [leValue]
    omega
  have hv : leValue [b1, b2, b3, b4] < 2 ^ 32 := by simp only [leValue]; omega
  simp only [vbHeaderAddress, operand, if_neg (by decide : ¬(0x68 : UInt8) ≠ 0x68),
    BitVec.signExtend, BitVec.toNat_ofInt, BitVec.toInt_eq_toNat_cond, BitVec.toNat_ofNat,
    Nat.mod_eq_of_lt hv, Option.some.injEq]
  generalize leValue [b1, b2, b3, b4] = v at hv ⊢
  split_ifs <;> omega

example : vbHeaderAddress [0x68, 0x00, 0x10, 0x40, 0x80] = some 0xFFFFFFFF80401000 := by decide

end PeFormat
