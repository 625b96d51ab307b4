import SpanMetrics.Deflate.Matching
import SpanMetrics.Zlib.Stream

/-!
# Compressing

A content is compressed into one data block, and the end of the stream is an empty stored block
with the mark of the last one, then the check. An encoder that is told to flush writes that empty
block unmarked, and one that is told to finish appends a block of its own; `settle` gets the wanted
stream from those two answers. It does not know where the header of the empty block starts, only
that it is among the last ten bits before the marker, so it tries them in turn and keeps what reads
back as the content.
-/
namespace SpanMetrics.Zlib

open Deflate

/-- The length fields of an empty stored block. -/
def marker : Bytes := [0x00, 0x00, 0xFF, 0xFF]

/-- What an encoder has written after a flush, and after finishing. -/
structure Flushed where
  synced : Bytes
  finished : Bytes
deriving DecidableEq

/-- Sets one bit, counted from the lowest bit of the first byte. -/
def setBit (place : Nat) (bytes : Bytes) : Bytes :=
  bytes.modify (place / 8) (· ||| (1 : UInt8) <<< UInt8.ofNat (place % 8))

def lastBytes (count : Nat) (bytes : Bytes) : Bytes := bytes.drop (bytes.length - count)

/-- Where the header of the block before the marker may start, the last place first. -/
def candidatePlaces (synced : Bytes) : List Nat :=
  (List.range' 3 8).map fun back => (synced.length - marker.length) * 8 - back

/-- The flushed stream with its last block marked as such, followed by the check. -/
def marked (f : Flushed) (place : Nat) : Bytes :=
  setBit place f.synced ++ lastBytes 4 f.finished

/-- The first marked stream that reads back as the content, and the finished stream if there is
none or if the flushed stream is too short to hold a block before the marker. -/
def settle (f : Flushed) (content : Bytes) : Bytes :=
  if f.synced.length < header.length + 2 + marker.length ∨
      f.finished.length < f.synced.length + 4 ∨ lastBytes 4 f.synced ≠ marker then f.finished
  else
    (((candidatePlaces f.synced).map (marked f)).find?
      (fun stream => inflate? stream = some content)).getD f.finished

/-- The empty stored block's header, unmarked. -/
def syncHeader : Bits := [false, false, false]

/-- A data block under the fixed codes, not the last one. -/
def fixedBlock (tokens : List Token) : Bits :=
  [false, true, false] ++ tokens.flatMap Token.bits ++ fixedWord endOfBlock

/-- Most bytes of a stored block. -/
def storedLimit : Nat := 65535

/-- Stored blocks, none of them the last one, from the start of a byte on. -/
def storedBlocks (content : Bytes) : Bytes :=
  let part := content.take storedLimit
  let blocks := 0x00 :: Bytes.littleEndian 2 part.length ++
    Bytes.littleEndian 2 (storedLimit - part.length) ++ part
  if content.length ≤ storedLimit then blocks else blocks ++ storedBlocks (content.drop storedLimit)
termination_by content.length
decreasing_by
  rename_i h
  simp only [List.length_drop, storedLimit] at h ⊢
  omega

/-- Contents of up to this many bytes are never stored. -/
def alwaysPacked : Nat := 32

/-- The data of a content: nothing for no content, else the block under the fixed codes, unless the
content is long enough to be stored and gains nothing from its tokens. -/
def dataBits (content : Bytes) : Bits :=
  if content.isEmpty then []
  else
    let block := fixedBlock (tokens content)
    if alwaysPacked < content.length ∧ content.length ≤ block.length / 8 + 1 then
      Bits.ofBytes (storedBlocks content)
    else block

/-- The encoder's two answers. -/
def deflate (content : Bytes) : Flushed :=
  let synced := header ++ Bits.toBytes (dataBits content ++ syncHeader) ++ marker
  let last := Bits.toBytes ([true, true, false] ++ fixedWord endOfBlock)
  ⟨synced, synced ++ last ++ Bytes.bigEndian 4 (adler32 content)⟩

/-- The stream of a content, from the answers of any encoder. -/
def compressWith (answers : Bytes → Flushed) (content : Bytes) : Bytes :=
  settle (answers content) content

def compress (content : Bytes) : Bytes := compressWith deflate content

example : compress [] =
    [0x78, 0xDA, 0x00, 0x00, 0x00, 0xFF, 0xFF, 0x03, 0x00, 0x00, 0x00, 0x00, 0x01] := by
  decide +kernel

end SpanMetrics.Zlib
