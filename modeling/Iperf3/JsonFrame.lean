import Iperf3.MachineInt
import Iperf3.Parameters
import Mathlib.Tactic

/-!
# JSON frames on the control connection

A message is written as its length in four bytes followed by the text.  The
printer and the parser are those of the vendored library and are taken as
given; what is used of them is that parsing a printed message gives the
message back, with every number re-read.
-/

namespace Iperf3

/-- The printer and the parser of the JSON library. -/
structure Codec where
  print : Json → List UInt8
  parse : List UInt8 → Option Json

/-- Parsing undoes printing on the message `j`, up to numbers that are not
integers of at most `2 ^ 53`. -/
def Codec.Faithful (codec : Codec) (j : Json) : Prop :=
  ∃ f, CJson.KeepsIntegers f ∧ codec.parse (codec.print j) = some (j.mapNumbers f)

/-- A text that a frame can carry: not empty, and not longer than the limit of
the reader, where a limit of zero is none. -/
def Codec.Fits (codec : Codec) (maxSize : ℕ) (j : Json) : Prop :=
  0 < (codec.print j).length ∧ (codec.print j).length < 4294967296 ∧
    (maxSize = 0 ∨ (codec.print j).length ≤ maxSize)

def Codec.Carries (codec : Codec) (maxSize : ℕ) (j : Json) : Prop :=
  codec.Faithful j ∧ codec.Fits maxSize j

def maxParamsJsonString : ℕ := 8 * 1024

def jsonWrite (codec : Codec) (j : Json) : List UInt8 :=
  BigEndian.encode 4 (codec.print j).length ++ codec.print j

/-- Reading one frame from the bytes that have arrived.  The second component
is what remains in the connection. -/
def jsonRead (codec : Codec) (maxSize : ℕ) (bytes : List UInt8) :
    Option Json × List UInt8 :=
  if bytes.length < 4 then (none, [])
  else
    let hsize := BigEndian.decode (bytes.take 4)
    let rest := bytes.drop 4
    if 0 < hsize ∧ (maxSize = 0 ∨ hsize ≤ maxSize) then
      if rest.length < hsize then (none, [])
      else (codec.parse (rest.take hsize), rest.drop hsize)
    else (none, rest)

theorem jsonRead_jsonWrite
    {codec : Codec} {maxSize : ℕ} {j : Json} (hfits : codec.Fits maxSize j)
    (rest : List UInt8) :
    jsonRead codec maxSize (jsonWrite codec j ++ rest) =
      (codec.parse (codec.print j), rest) := by
  obtain ⟨hpos, hsmall, hmax⟩ := hfits
  have hhead : (jsonWrite codec j ++ rest).take 4 =
      BigEndian.encode 4 (codec.print j).length := by
    rw [jsonWrite, List.append_assoc, List.take_left' (by simp)]
  have htail : (jsonWrite codec j ++ rest).drop 4 = codec.print j ++ rest := by
    rw [jsonWrite, List.append_assoc, List.drop_left' (by simp)]
  have hsize : BigEndian.decode ((jsonWrite codec j ++ rest).take 4) =
      (codec.print j).length := by
    rw [hhead]
    apply BigEndian.decode_encode
    norm_num
    omega
  have hlong : ¬ (jsonWrite codec j ++ rest).length < 4 := by
    rw [jsonWrite]
    simp
  unfold jsonRead
  rw [if_neg hlong]
  simp only [hsize, htail]
  rw [if_pos ⟨hpos, hmax⟩, if_neg (by simp), List.take_left, List.drop_left]

/-- A message that the codec carries arrives with its numbers re-read. -/
theorem Codec.Carries.jsonRead_eq
    {codec : Codec} {maxSize : ℕ} {j : Json} (h : codec.Carries maxSize j)
    (rest : List UInt8) :
    ∃ f, CJson.KeepsIntegers f ∧
      jsonRead codec maxSize (jsonWrite codec j ++ rest) =
        (some (j.mapNumbers f), rest) := by
  obtain ⟨⟨f, hf, hparse⟩, hfits⟩ := h
  exact ⟨f, hf, by rw [jsonRead_jsonWrite hfits, hparse]⟩

/-! ## A codec for two messages -/

def asciiBytes (text : String) : List UInt8 :=
  text.toList.map fun c => c.toNat.toUInt8

/-- Two messages with their texts, which `pick` tells apart. -/
def Codec.ofTexts (pick : Json → Bool) (first second : List UInt8 × Json) : Codec where
  print j := if pick j then first.1 else second.1
  parse text :=
    if text = first.1 then some (first.2.mapNumbers id)
    else if text = second.1 then some (second.2.mapNumbers id)
    else none

section OfTexts

variable {pick : Json → Bool} {first second : List UInt8 × Json}

theorem Codec.ofTexts_first (hpick : pick first.2 = true) :
    (Codec.ofTexts pick first second).print first.2 = first.1 ∧
      (Codec.ofTexts pick first second).parse first.1 =
        some (first.2.mapNumbers id) := by
  constructor
  · exact if_pos hpick
  · exact if_pos rfl

theorem Codec.ofTexts_second
    (hpick : pick second.2 = false) (hne : second.1 ≠ first.1) :
    (Codec.ofTexts pick first second).print second.2 = second.1 ∧
      (Codec.ofTexts pick first second).parse second.1 =
        some (second.2.mapNumbers id) := by
  constructor
  · exact if_neg (by simp [hpick])
  · exact (if_neg hne).trans (if_pos rfl)

end OfTexts

theorem Codec.carries_of_text
    {codec : Codec} {j : Json} {text : List UInt8} {maxSize : ℕ}
    (h : codec.print j = text ∧ codec.parse text = some (j.mapNumbers id))
    (hpos : 0 < text.length) (hsmall : text.length < 4294967296)
    (hmax : maxSize = 0 ∨ text.length ≤ maxSize) :
    codec.Carries maxSize j := by
  obtain ⟨hprint, hparse⟩ := h
  constructor
  · exact ⟨id, fun _ _ => rfl, by rw [hprint, hparse]⟩
  · rw [← hprint] at hpos hsmall hmax
    exact ⟨hpos, hsmall, hmax⟩

end Iperf3
