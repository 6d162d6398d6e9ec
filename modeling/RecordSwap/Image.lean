import RecordSwap.Bits
import RecordSwap.Plan

/-!
# Images

Plans carried out on the bytes of a record, as the generated functions do when input and output are
one object. What lies past the end of the image is left out.

* `Image.onSpan`, `Image.onElements`: work on a part of an image.
* `Plans.byteSwap`, `Plans.bitSwap`: the conversion of one record.
* `Image.pattern`: an image with recognizable bytes.
-/

namespace RecordSwap

/-- The bytes of a record, and maybe of what follows it. -/
abbrev Image : Type := Bytes

namespace Image

/-- Replaces the `size` bytes from `start` on, if they all lie in the image. -/
def onSpan (start size : Nat) (f : Bytes → Bytes) (image : Image) : Image :=
  let span := (image.drop start).take size
  if span.length = size then image.take start ++ f span ++ image.drop (start + size) else image

/-- Works on the tail of an image at each of `count` elements that lie `stride` bytes apart, as long
as they start inside the image or at its end. The bytes before the tail, last one first, are
`before`; an empty tail stays empty, so that one visit to it stands for all. -/
def walk (stride : Nat) (f : Image → Checked Image) : Nat → Bytes → Image → Checked Image
  | 0, before, rest => pure (before.reverse ++ rest)
  | _ + 1, before, [] => do pure (before.reverse ++ (← f []))
  | count + 1, before, rest => do
    let rest ← f rest
    let element := rest.take stride
    if element.length = stride then
      walk stride f count (element.reverse ++ before) (rest.drop stride)
    else pure (before.reverse ++ rest)

/-- Checks that `count` elements of `size` bytes, `stride` bytes apart from `offset` on, have
addresses. -/
def checkElements (offset stride count size : Nat) : Checked Unit := do
  if count = 0 then pure ()
  else do
    let start ← addSize offset (← mulSize (count - 1) stride)
    let _ ← addSize start size

/-- Works on the tail of an image at each of `count` elements that lie `stride` bytes apart, from
`offset` on. -/
def onElements (offset stride count : Nat) (f : Image → Checked Image) (image : Image) :
    Checked Image :=
  let before := image.take offset
  if before.length = offset then walk stride f count before.reverse (image.drop offset)
  else pure image

/-- Reverses the `width` bytes of each of `count` elements. -/
def swapWords (offset stride count width : Nat) (image : Image) : Checked Image := do
  checkElements offset stride count width
  onElements offset stride count (fun rest => pure (onSpan 0 width List.reverse rest)) image

/-- Works on a storage unit, if it lies in the image. -/
def onUnit (offset size : Nat) (f : Bytes → Checked Bytes) (image : Image) : Checked Image := do
  let stop ← addSize offset size
  let unit := (image.drop offset).take size
  if unit.length = size then do
    pure (image.take offset ++ (← f unit) ++ image.drop stop)
  else pure image

/-- The image of `size` bytes whose byte at position `i` is `37 i + 11`. -/
def pattern (size : Nat) : Image :=
  (List.range size).map fun i => UInt8.ofNat (i * 37 + 11)

end Image

namespace Plans

/-- Swaps the bit-fields of the record at `index`, at the front of the image. -/
def bitSwap (plans : Plans) (direction : Direction) (index : Nat) (image : Image) : Checked Image :=
  match plans.bitSwap? index with
  | none => pure image
  | some plan => plan.ops.foldlM (fun image op =>
      match op with
      | .reflectInput offset size =>
        if direction = .foreignToLocal then image.onUnit offset size fun u => pure (reflect u)
        else pure image
      | .reflectOutput offset size =>
        if direction = .localToForeign then image.onUnit offset size fun u => pure (reflect u)
        else pure image
      | .mirror _ bits offset size shift =>
        image.onUnit offset size fun u => mirrorField u shift bits
      | .copy _ => pure image
      | .nested _ target extents offset elementSize => do
        let count ← product extents
        Image.checkElements offset elementSize count 0
        if _h : target < index then
          image.onElements offset elementSize count fun rest => plans.bitSwap direction target rest
        else throw .forwardEmbedding) image
termination_by index

/-- Swaps the record at `index`, at the front of the image. -/
def byteSwap (plans : Plans) (direction : Direction) (index : Nat) (image : Image) :
    Checked Image :=
  match plans.swaps[index]? with
  | none => pure image
  | some plan => do
    let image ← plan.entries.foldlM (fun image entry =>
      match entry.strategy with
      | .nested target => do
        let count ← entry.elementCount
        Image.checkElements entry.offset entry.elementSize count 0
        if _h : target < index then
          image.onElements entry.offset entry.elementSize count fun rest =>
            plans.byteSwap direction target rest
        else throw .forwardEmbedding
      | strategy =>
        match strategy.width? with
        | none => pure image
        | some width => do
          image.swapWords entry.offset entry.elementSize (← entry.elementCount) width) image
    if plan.callsBitSwap then plans.bitSwap direction index image else pure image
termination_by index

end Plans

end RecordSwap
