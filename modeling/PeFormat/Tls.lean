import PeFormat.Image

/-!
`loadTlsInformation`: the TLS callbacks of a PE file. The array at `AddressOfCallBacks` is
read as 4-byte words, whatever the class of the file, up to the first zero word or the end
of the file. On a PE32+ file, whose array holds 8-byte addresses, each address is recorded
as its low half and then its high half, and the array ends at the first zero half.
-/
namespace PeFormat

/-- Modelled from the spec: `DynamicBuffer::read<std::uint32_t>` is not in the sources; at an
offset with four bytes left it reads them in little-endian order, the buffer's default. -/
def readUInt32 (bytes : Bytes) (offset : Nat) : Nat := leValue ((bytes.drop offset).take 4)

/-- The loop of `loadTlsInformation` from `callBacksOffset`, with `n` whole words of the file
left: the callbacks it adds, in order. -/
def readCallBacks (bytes : Bytes) : Nat → Nat → List Nat
  | _, 0 => []
  | callBacksOffset, n + 1 =>
    let cbAddr := readUInt32 bytes callBacksOffset
    if cbAddr = 0 then [] else cbAddr :: readCallBacks bytes (callBacksOffset + 4) n

/-- The loop runs while `allBytes.size() >= callBacksOffset + 4`. -/
def tlsCallBacks (bytes : Bytes) (callBacksOffset : Nat) : List Nat :=
  readCallBacks bytes callBacksOffset ((bytes.length - callBacksOffset) / 4)

/-- The callbacks of `tlsInfo`; `none` when there is no TLS directory (`getDataDirectoryRelative`
fails, here `tlsDirectorySize = none`, or the size is 0). -/
def loadTlsInformation (img : Image) (tlsDirectorySize : Option Nat) (callBacksAddr : Nat) :
    Option (List Nat) :=
  match tlsDirectorySize with
  | none | some 0 => none
  | some _ =>
    match img.offsetFromAddress callBacksAddr with
    | some callBacksOffset => some (tlsCallBacks img.bytes callBacksOffset)
    | none => some []

def callBackArray (width : Nat) (bytes : Bytes) (offset : Nat) : List Nat :=
  ((List.range ((bytes.length - offset) / width)).map fun k =>
    leValue ((bytes.drop (offset + width * k)).take width)).takeWhile (· != 0)

/-! ## The loop reads 4-byte words -/

theorem readCallBacks_eq_takeWhile (bytes : Bytes) (n : Nat) : ∀ callBacksOffset,
    readCallBacks bytes callBacksOffset n =
      ((List.range n).map fun k => readUInt32 bytes (callBacksOffset + 4 * k)).takeWhile (· != 0)
  := by
  induction n with
  | zero => intro; rfl
  | succ n ih =>
    intro o
    rw [List.range_succ_eq_map, List.map_cons, List.map_map, List.takeWhile_cons, readCallBacks,
      ih (o + 4)]
    have shift : ((fun k => readUInt32 bytes (o + 4 * k)) ∘ Nat.succ) =
        fun k => readUInt32 bytes (o + 4 + 4 * k) := by
      funext k; simp only [Function.comp, Nat.mul_succ]; congr 1; omega
    by_cases h0 : readUInt32 bytes o = 0 <;> simp [h0, shift]

theorem tlsCallBacks_eq_callBackArray (bytes : Bytes) (callBacksOffset : Nat) :
    tlsCallBacks bytes callBacksOffset = callBackArray 4 bytes callBacksOffset := by
  rw [tlsCallBacks, readCallBacks_eq_takeWhile]
  rfl

theorem readUInt32_of_drop {bytes rest : Bytes} {offset w : Nat}
    (h : bytes.drop offset = leBytes 4 w ++ rest) : readUInt32 bytes offset = w % 2 ^ 32 := by
  rw [readUInt32, h, List.take_left' (leBytes_length 4 w), show (2 : Nat) ^ 32 = 256 ^ 4 from rfl,
    ← leBytes_mod, leValue_leBytes 4 _ (Nat.mod_lt _ (by decide))]

theorem readCallBacks_words {bytes rest : Bytes} (hend : rest.length < 4 ∨ readUInt32 rest 0 = 0) :
    ∀ {ws : List Nat} {offset : Nat}, bytes.drop offset = ws.flatMap (leBytes 4) ++ rest →
      (∀ w ∈ ws, 0 < w ∧ w < 2 ^ 32) →
      readCallBacks bytes offset ((bytes.length - offset) / 4) = ws
  | [], offset, h, _ => by
    have hlen : bytes.length - offset = rest.length := by rw [← List.length_drop, h]; rfl
    by_cases hshort : rest.length < 4
    · rw [hlen, Nat.div_eq_of_lt hshort]; rfl
    · have hcount : (bytes.length - offset) / 4 = (bytes.length - (offset + 4)) / 4 + 1 := by
        omega
      have hzero : readUInt32 bytes offset = 0 := by
        rw [readUInt32, h]; exact hend.resolve_left hshort
      rw [hcount, readCallBacks]
      simp [hzero]
  | w :: ws, offset, h, hws => by
    obtain ⟨hpos, hlt⟩ := hws w (List.mem_cons_self _ _)
    rw [List.flatMap_cons, List.append_assoc] at h
    have hlen : bytes.length - offset = 4 + (ws.flatMap (leBytes 4) ++ rest).length := by
      rw [← List.length_drop, h, List.length_append, leBytes_length]
    have hnext : bytes.drop (offset + 4) = ws.flatMap (leBytes 4) ++ rest := by
      rw [← List.drop_drop, h, List.drop_left' (leBytes_length 4 w)]
    have hread : readUInt32 bytes offset = w := by
      rw [readUInt32_of_drop h, Nat.mod_eq_of_lt hlt]
    have hcount : (bytes.length - offset) / 4 = (bytes.length - (offset + 4)) / 4 + 1 := by
      omega
    rw [hcount, readCallBacks]
    simp only [hread, Nat.pos_iff_ne_zero.mp hpos, if_false,
      readCallBacks_words hend hnext fun v hv => hws v (List.mem_cons_of_mem _ hv)]

theorem flatMap_leBytes_eight (vs : List Nat) :
    vs.flatMap (leBytes 8) = (vs.flatMap fun v => [v % 2 ^ 32, v / 2 ^ 32]).flatMap (leBytes 4) := by
  rw [List.flatMap_assoc]
  congr 1
  funext v
  rw [show 8 = 4 + 4 from rfl, leBytes_add, show (2 : Nat) ^ 32 = 256 ^ 4 from rfl]
  simp only [List.flatMap_cons, List.flatMap_nil, List.append_nil, leBytes_mod]

theorem tlsCallBacks_halves {bytes rest : Bytes} {offset : Nat} {vs : List Nat}
    (h : bytes.drop offset = vs.flatMap (leBytes 8) ++ rest)
    (hvs : ∀ v ∈ vs, v < 2 ^ 64 ∧ v % 2 ^ 32 ≠ 0 ∧ v / 2 ^ 32 ≠ 0)
    (hend : rest.length < 4 ∨ readUInt32 rest 0 = 0) :
    tlsCallBacks bytes offset = vs.flatMap fun v => [v % 2 ^ 32, v / 2 ^ 32] := by
  rw [flatMap_leBytes_eight] at h
  refine readCallBacks_words hend h fun w hw => ?_
  obtain ⟨v, hv, hw⟩ := List.mem_flatMap.mp hw
  obtain ⟨hlt, hlow, hhigh⟩ := hvs v hv
  simp only [List.mem_cons, List.mem_singleton, List.not_mem_nil, or_false] at hw
  rcases hw with rfl | rfl
  · exact ⟨Nat.pos_of_ne_zero hlow, Nat.mod_lt _ (by decide)⟩
  · exact ⟨Nat.pos_of_ne_zero hhigh, by omega⟩

def pe32PlusTlsImage : Image :=
  ⟨leBytes 8 0x140001000 ++ leBytes 8 0, fun a => if a = 0x140003000 then some 0 else none,
    by decide⟩

theorem tlsCallBacks_pe32PlusTlsImage :
    tlsCallBacks pe32PlusTlsImage.bytes 0 =
      [0x140001000].flatMap fun v => [v % 2 ^ 32, v / 2 ^ 32] :=
  tlsCallBacks_halves
    (by decide : pe32PlusTlsImage.bytes.drop 0 = [0x140001000].flatMap (leBytes 8) ++ leBytes 8 0)
    (by decide) (.inr (by decide))

theorem loadTlsInformation_pe32PlusTlsImage :
    loadTlsInformation pe32PlusTlsImage (some 24) 0x140003000 = some [0x40001000, 1] ∧
      callBackArray 8 pe32PlusTlsImage.bytes 0 = [0x140001000] := by
  decide

end PeFormat
