/-
# Writing a listing

A listing is written line by line.  When the writer refuses part of a line, writing stops there;
the labels of the lines written whole are marked in the map, and the line that was refused leaves
no mark.  Writing a listing therefore changes nothing but those marks, and only ever adds to them.

Main statements: `Writer.prefix_whole_iff` (which lines are written whole), `Delivery.deliver_eq`
(what is left of lines that are written, wherever the writer breaks off), `stop_write` (writing
leaves the stop alone) and `render_fst` (rendering gives the text of the listing).
-/
import Disassembler8080.Listing.Layout
import Disassembler8080.Sweep
import Disassembler8080.Writer

namespace Disassembler8080

/-! ## 1. Delivering lines -/

/-- A listing under way: the map with the marks made so far, the writer, and the failure that
stopped the writing, if there was one. -/
structure Delivery where
  map : MemoryMap
  writer : Writer
  failure : Option String := none

namespace Delivery

/-- Writes one line and leaves its mark if it was taken whole. -/
def put (delivery : Delivery) (line : Line) : Delivery :=
  match delivery.writer.put line.written.toByteArray with
  | (writer, none) => { map := line.mark delivery.map, writer := writer }
  | (writer, some failure) => { delivery with writer := writer, failure := some failure }

/-- Writes lines until one fails. -/
def deliver (delivery : Delivery) : List Line → Delivery
  | [] => delivery
  | line :: rest =>
    match delivery.failure with
    | some _ => delivery
    | none => deliver (delivery.put line) rest

/-- A delivery that has failed goes no further. -/
theorem deliver_of_failure {delivery : Delivery} {failure : String}
    (h : delivery.failure = some failure) (lines : List Line) :
    delivery.deliver lines = delivery := by
  cases lines with
  | nil => rfl
  | cons line rest => simp [deliver, h]

theorem deliver_append (delivery : Delivery) (first second : List Line) :
    delivery.deliver (first ++ second) = (delivery.deliver first).deliver second := by
  induction first generalizing delivery with
  | nil => rfl
  | cons line rest ih =>
    cases h : delivery.failure with
    | some failure =>
      rw [deliver_of_failure h, deliver_of_failure h, deliver_of_failure h]
    | none => simp only [List.cons_append, deliver, h, ih]

end Delivery

/-! ## 2. Lines that a writer takes whole -/

namespace Writer

theorem put_join_cons (writer : Writer) (line : Line) (rest : List Line) :
    writer.put (String.join ((line :: rest).map Line.written)).toByteArray =
      match writer.put line.written.toByteArray with
      | (after, none) => after.put (String.join (rest.map Line.written)).toByteArray
      | (after, some failure) => (after, some failure) := by
  rw [List.map_cons, String.join_cons]
  exact writer.put_append _ _

/-- The lines of a row that a writer takes whole before it breaks off. -/
def whole (writer : Writer) : List Line → List Line
  | [] => []
  | line :: rest =>
    match writer.put line.written.toByteArray with
    | (after, none) => line :: after.whole rest
    | (_, some _) => []

/-- **Which lines are taken whole**: those up to which there is room for all of the text. -/
theorem prefix_whole_iff (writer : Writer) (part lines : List Line) :
    part <+: writer.whole lines ↔
      part <+: lines ∧ (writer.put (String.join (part.map Line.written)).toByteArray).2 = none := by
  induction lines generalizing writer part with
  | nil =>
    rw [whole, List.prefix_nil]
    refine (and_iff_left_of_imp ?_).symm
    rintro rfl
    rw [List.map_nil, String.join_nil, String.toByteArray_empty, put_empty]
  | cons line rest ih =>
    cases part with
    | nil =>
      rw [List.map_nil, String.join_nil, String.toByteArray_empty, put_empty]
      exact iff_of_true List.nil_prefix ⟨List.nil_prefix, rfl⟩
    | cons other others =>
      rw [whole, List.cons_prefix_cons]
      cases hput : writer.put line.written.toByteArray with
      | mk after failure =>
        cases failure with
        | none =>
          simp only [List.cons_prefix_cons, ih, and_assoc]
          refine and_congr_right ?_
          rintro rfl
          rw [put_join_cons, hput]
        | some failure =>
          refine iff_of_false (by simp) ?_
          rintro ⟨⟨rfl, -⟩, htaken⟩
          rw [put_join_cons, hput] at htaken
          exact absurd htaken (by simp)

/-- A line is taken whole if there is room for the text up to its end. -/
theorem mem_whole_iff (writer : Writer) (line : Line) (lines : List Line) :
    line ∈ writer.whole lines ↔
      ∃ before after, lines = before ++ line :: after ∧
        (writer.put (String.join ((before ++ [line]).map Line.written)).toByteArray).2 = none := by
  constructor
  · intro hmem
    obtain ⟨before, after, hwhole⟩ := List.append_of_mem hmem
    have hpart : before ++ [line] <+: writer.whole lines := ⟨after, by simp [hwhole]⟩
    obtain ⟨⟨rest, hlines⟩, htaken⟩ := (writer.prefix_whole_iff _ _).mp hpart
    exact ⟨before, rest, by simp [← hlines], htaken⟩
  · rintro ⟨before, after, rfl, htaken⟩
    have hpart : before ++ [line] <+: before ++ line :: after := ⟨after, by simp⟩
    exact ((writer.prefix_whole_iff _ _).mpr ⟨hpart, htaken⟩).subset (by simp)

/-- The lines taken whole are a front part of all lines. -/
theorem whole_prefix (writer : Writer) (lines : List Line) : writer.whole lines <+: lines :=
  ((writer.prefix_whole_iff _ _).mp (List.prefix_refl _)).1

theorem whole_of_room_eq_none {writer : Writer} (h : writer.room = none) (lines : List Line) :
    writer.whole lines = lines := by
  have hall : lines <+: writer.whole lines :=
    (writer.prefix_whole_iff _ _).mpr ⟨List.prefix_refl _, by simp [put_snd_eq_none_iff, h]⟩
  exact (writer.whole_prefix lines).eq_of_length_le hall.length_le

end Writer

/-- **What is left of lines that are written.**  The writer is as if their text had been put at
once, and the lines that it took whole have left their marks. -/
theorem Delivery.deliver_eq (map : MemoryMap) (writer : Writer) (lines : List Line) :
    Delivery.deliver ⟨map, writer, none⟩ lines =
      { map := (writer.whole lines).foldl (fun map line => line.mark map) map
        writer := (writer.put (String.join (lines.map Line.written)).toByteArray).1
        failure := (writer.put (String.join (lines.map Line.written)).toByteArray).2 } := by
  induction lines generalizing map writer with
  | nil =>
    rw [List.map_nil, String.join_nil, String.toByteArray_empty, Writer.put_empty]
    rfl
  | cons line rest ih =>
    rw [Writer.put_join_cons, Writer.whole]
    cases hput : writer.put line.written.toByteArray with
    | mk after failure =>
      cases failure with
      | none =>
        have hone : Delivery.put ⟨map, writer, none⟩ line = ⟨line.mark map, after, none⟩ := by
          simp [Delivery.put, hput]
        rw [deliver, hone, ih]
        rfl
      | some failure =>
        have hone : Delivery.put ⟨map, writer, none⟩ line = ⟨map, after, some failure⟩ := by
          simp [Delivery.put, hput]
        rw [deliver, hone, deliver_of_failure rfl]
        rfl

/-! ## 3. Writing a disassembly -/

/-- What writing a listing leads to. -/
structure WriteReport where
  disassembly : Disassembly
  writer : Writer
  failure : Option String
  events : List LogEvent

namespace Disassembly

/-- Writes the listing.  That the definitions are complete is reported as soon as they are written,
so a failure in the closing lines comes after the report. -/
def write (disassembly : Disassembly) (writer : Writer) : WriteReport :=
  let front := Delivery.deliver ⟨disassembly.map, writer, none⟩ disassembly.front
  let whole := front.deliver closing
  { disassembly := { disassembly with map := whole.map }
    writer := whole.writer
    failure := whole.failure
    events :=
      if front.failure.isNone then [.definedOutside disassembly.outside.length] else [] }

/-- The listing as one text, and the disassembly with the labels of its body marked.  The text is
what the bytes written are read as. -/
def render (disassembly : Disassembly) : String × Disassembly :=
  let report := disassembly.write .unbounded
  (report.writer.accepted, report.disassembly)

/-- Writing leaves the stop alone. -/
@[simp] theorem stop_write (disassembly : Disassembly) (writer : Writer) :
    (disassembly.write writer).disassembly.stop = disassembly.stop := rfl

/-- Rendering gives the text of the listing. -/
theorem render_fst (disassembly : Disassembly) : disassembly.render.1 = disassembly.listing := by
  have h := Delivery.deliver_eq disassembly.map .unbounded disassembly.lines
  simp only [render, write, ← Delivery.deliver_append]
  rw [show disassembly.front ++ closing = disassembly.lines from rfl, h]
  change Text.ofBytes (Writer.unbounded.put disassembly.listing.toByteArray).1.taken = _
  rw [Writer.taken_put_unbounded, Text.ofBytes_toByteArray]

end Disassembly

/-! ## 4. From a stream to a listing -/

/-- How disassembling a stream into a writer went. -/
structure DisassembleReport where
  failure : Option Failure
  writer : Writer
  events : List LogEvent

/-- Decodes a stream and writes the listing, and flushes the writer when all of it is written.
Nothing is written when decoding fails. -/
def disassemble (stream : ByteStream) (blocks : List DataBlock) (writer : Writer) :
    DisassembleReport :=
  let sweep := linearSweep stream blocks
  match sweep.result with
  | .error failure => { failure := some failure, writer := writer, events := sweep.events }
  | .ok disassembly =>
    let report := disassembly.write writer
    { failure := (report.failure <|> report.writer.flushFailure).map Failure.inputOutput
      writer := report.writer
      events := sweep.events ++ report.events }

end Disassembler8080
