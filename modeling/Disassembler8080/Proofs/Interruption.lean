/-
# Listings that are broken off

A writer can refuse a listing at any byte: inside a label, between a label and its statement, among
the definitions, in the closing lines, and even inside a character, since a form may be of any text.
Whatever the place, writing the lines one by one is the same as putting their bytes at once, so what
arrives is a front part of the bytes, and what is marked are the labels whose lines lie in that
front part, line feed included.

The marks last.  A later listing leaves out the definition of a marked address, so a mark at an
address that no later body labels would lose that label.  It does not come to that: only labels in
place are marked, and whether an address has its label in place does not depend on the marks.

Main statements:

* `breaks_off_anywhere`: writing a listing, and disassembling a stream, into any writer.
* `Disassembly.listsAlike_afterAll`: listings that were broken off do not change later ones.
-/
import Disassembler8080.Proofs.Writing

namespace Disassembler8080

/-! ## 1. What is marked -/

theorem Line.mem_filterMap_label?_iff (lines : List Line) (address : Address) :
    address ∈ lines.filterMap label? ↔ .label address ∈ lines := by
  rw [List.mem_filterMap]
  refine ⟨?_, fun hmem => ⟨_, hmem, rfl⟩⟩
  rintro ⟨line, hmem, hlabel⟩
  cases line with
  | label other =>
    cases hlabel
    exact hmem
  | _ => exact absurd hlabel (by simp [label?])

namespace Disassembly

/-- An address is marked as labelled once a listing is written if it was so before or if its label
was taken whole. -/
theorem labelled_write_iff (disassembly : Disassembly) (writer : Writer) (address : Address) :
    ((disassembly.write writer).disassembly.map.location address).labelled = true ↔
      (disassembly.map.location address).labelled = true ∨
        .label address ∈ writer.whole disassembly.lines := by
  rw [(disassembly.write_eq writer).2.2, MemoryMap.location_markAll, Bool.or_eq_true,
    List.contains_iff_mem, Line.mem_filterMap_label?_iff]

end Disassembly

/-! ## 2. Where a listing breaks off -/

/-- What writing a listing into a writer with room for so many bytes has to lead to.  The listing is
the text that a writer without a bound takes. -/
structure BreaksOff (disassembly : Disassembly) (writer : Writer) (room : Nat)
    (report : WriteReport) : Prop where
  /-- The listing is the text of its lines, -/
  render_eq : disassembly.render.1 = String.join (disassembly.lines.map Line.written)
  /-- and its bytes are what a writer without a bound takes. -/
  bytes_unbounded : (disassembly.write .unbounded).writer.bytes = Text.bytes disassembly.render.1
  /-- The first bytes of the listing arrive, as many as there is room for. -/
  bytes_eq : report.writer.bytes = writer.bytes ++ (Text.bytes disassembly.render.1).take room
  failure_eq_none_iff : report.failure = none ↔ (Text.bytes disassembly.render.1).length ≤ room
  failure_eq : room < (Text.bytes disassembly.render.1).length →
    report.failure = some writer.refusal.message
  /-- The labels marked are those of before and those whose lines there is room for to the end. -/
  labelled_iff : ∀ address, (report.disassembly.map.location address).labelled = true ↔
    (disassembly.map.location address).labelled = true ∨
      ∃ before after, disassembly.lines = before ++ .label address :: after ∧
        (Text.bytes (String.join ((before ++ [.label address]).map Line.written))).length ≤ room
  /-- Nothing but those marks changes. -/
  location_eq : ∀ address, report.disassembly.map.location address =
    { disassembly.map.location address with
      labelled := (report.disassembly.map.location address).labelled }
  stop_eq : report.disassembly.stop = disassembly.stop

/-- What disassembling a stream into a writer has to lead to, once the stream has been decoded. -/
structure DisassemblesInto (decoded : Disassembly) (writer : Writer)
    (report : DisassembleReport) : Prop where
  /-- With a bound on its room, the writer takes the first bytes of the listing that fit. -/
  bytes_eq : ∀ room, writer.room = some room → report.writer.bytes =
    writer.bytes ++ (Text.bytes decoded.render.1).take room
  /-- A listing that does not fit is refused. -/
  failure_eq : ∀ room, writer.room = some room → room < (Text.bytes decoded.render.1).length →
    report.failure = some (.inputOutput writer.refusal.message)
  /-- One that fits arrives as a whole, and then the writer is flushed. -/
  flushed : (∀ room ∈ writer.room, (Text.bytes decoded.render.1).length ≤ room) →
    report.writer.bytes = writer.bytes ++ Text.bytes decoded.render.1 ∧
      report.failure = writer.flushFailure.map Failure.inputOutput

/-- Writing a listing breaks off where the room ends. -/
theorem Disassembly.breaksOff_write (disassembly : Disassembly) (writer : Writer) (room : Nat) :
    BreaksOff disassembly writer room (disassembly.write { writer with room := some room }) := by
  have hroom : ({ writer with room := some room } : Writer).room = some room := rfl
  obtain ⟨hwriter, hfailure, hdisassembly⟩ :=
    disassembly.write_eq { writer with room := some room }
  rw [← render_fst] at hwriter hfailure
  constructor
  · exact disassembly.render_fst
  · rw [(disassembly.write_of_room_eq_none rfl).2.1, render_fst]
    rfl
  · rw [hwriter, Writer.bytes_put]
    rfl
  · rw [hfailure, Writer.put_snd_eq_none_iff]
    simp only [Option.mem_some, forall_eq']
    rfl
  · intro hlt
    rw [hfailure, Writer.put_snd_of_room_lt hroom hlt]
  · intro address
    rw [labelled_write_iff, Writer.mem_whole_iff]
    simp only [Writer.put_snd_eq_none_iff, Option.mem_some, forall_eq']
    rfl
  · intro address
    rw [hdisassembly, MemoryMap.location_markAll]
  · rfl

/-- **Wherever a writer breaks a listing off**, and be it inside a character, what has arrived are the
first bytes of the listing that there was room for, and marked are the labels whose lines have
arrived to their line feeds.
Disassembling a stream writes in the same way once the stream is decoded, flushes when all of the
listing has arrived, and writes nothing if the stream cannot be decoded. -/
theorem breaks_off_anywhere (disassembly : Disassembly) (stream : ByteStream)
    (blocks : List DataBlock) (writer : Writer) (room : Nat) :
    BreaksOff disassembly writer room (disassembly.write { writer with room := some room }) ∧
      (∀ failure, (linearSweep stream blocks).result = .error failure →
        (disassemble stream blocks writer).writer = writer ∧
          (disassemble stream blocks writer).failure = some failure) ∧
      ∀ decoded, (linearSweep stream blocks).result = .ok decoded →
        DisassemblesInto decoded writer (disassemble stream blocks writer) := by
  refine ⟨disassembly.breaksOff_write writer room, ?_, ?_⟩
  · intro failure herror
    simp only [disassemble, herror, and_self]
  · intro decoded hok
    obtain ⟨hwriter, hfailure, -⟩ := decoded.write_eq writer
    rw [← Disassembly.render_fst] at hwriter hfailure
    have hreport :
        (disassemble stream blocks writer).writer =
            (writer.put decoded.render.1.toByteArray).1 ∧
          (disassemble stream blocks writer).failure =
            ((writer.put decoded.render.1.toByteArray).2 <|> writer.flushFailure).map
              Failure.inputOutput := by
      simp only [disassemble, hok, hwriter, hfailure, Writer.flushFailure_put, and_self]
    constructor
    · intro room hroom
      rw [hreport.1, Writer.bytes_put, Writer.fitting, hroom]
      rfl
    · intro room hroom hlt
      rw [hreport.2, Writer.put_snd_of_room_lt hroom hlt]
      rfl
    · intro hfits
      obtain ⟨hbytes, hnone⟩ := Writer.put_of_room_le hfits
      rw [hreport.1, hbytes, hreport.2, hnone]
      exact ⟨rfl, rfl⟩

/-- A label whose line feed is refused leaves no mark. -/
example :
    let disassembly : Disassembly :=
      { map := (MemoryMap.blank.place 0 (.data 0x41)).refer 0, stop := 1 }
    let labelled : Nat → Bool := fun room =>
      ((disassembly.write { room := some room }).disassembly.map.location 0).labelled
    labelled 6 = false ∧ labelled 7 = true := by
  decide

/-! ## 3. Listings behind ones that were broken off -/

/-- One use of a disassembly for its listing. -/
inductive Attempt where
  | write (writer : Writer)
  | render

namespace Disassembly

/-- What is left of a disassembly behind one use. -/
def after (disassembly : Disassembly) : Attempt → Disassembly
  | .write writer => (disassembly.write writer).disassembly
  | .render => disassembly.render.2

/-- What is left of a disassembly behind uses one after the other. -/
def afterAll (disassembly : Disassembly) (attempts : List Attempt) : Disassembly :=
  attempts.foldl after disassembly

/-- A disassembly that is another one but for labels marked, all of which the body of that other one
has in place. -/
structure MarkedFrom (first later : Disassembly) : Prop where
  eq_first : later = { first with map := { first.map with labelled := later.map.labelled } }
  labelled_of_first : ∀ address, (first.map.location address).labelled = true →
    (later.map.location address).labelled = true
  mem_placed : ∀ address, (later.map.location address).labelled = true →
    (first.map.location address).labelled = true ∨ address ∈ first.placed

namespace MarkedFrom

variable {first second third : Disassembly}

/-- What the marks leave alone decides on the labels in place. -/
theorem placed_eq (h : MarkedFrom first second) : second.placed = first.placed := by
  rw [h.eq_first]
  rfl

theorem trans (h : MarkedFrom first second) (h' : MarkedFrom second third) :
    MarkedFrom first third := by
  constructor
  · rw [h'.eq_first, h.eq_first]
  · intro address hfirst
    exact h'.labelled_of_first address (h.labelled_of_first address hfirst)
  · intro address hthird
    rcases h'.mem_placed address hthird with hsecond | hplaced
    · exact h.mem_placed address hsecond
    · exact Or.inr (h.placed_eq ▸ hplaced)

/-- The marks decide on no definition: an address that got its mark has its label in place in every
body. -/
theorem outside_eq (h : MarkedFrom first second) : second.outside = first.outside := by
  have hreferences : second.map.references = first.map.references := by
    rw [h.eq_first]
    rfl
  unfold outside
  rw [hreferences]
  refine List.filter_congr fun address _ => congrArg not ?_
  rw [contains_labelledAfterBody, contains_labelledAfterBody, h.placed_eq, Bool.eq_iff_iff]
  simp only [Bool.or_eq_true, List.contains_iff_mem]
  constructor
  · rintro (hsecond | hplaced)
    · exact h.mem_placed address hsecond
    · exact Or.inr hplaced
  · exact Or.imp_left (h.labelled_of_first address)

/-- **The marks change no line.** -/
theorem lines_eq (h : MarkedFrom first second) : second.lines = first.lines := by
  have hbody : second.body = first.body := by
    rw [h.eq_first]
    rfl
  rw [lines, front, hbody, h.outside_eq]
  rfl

theorem listing_eq (h : MarkedFrom first second) : second.listing = first.listing := by
  rw [listing, h.lines_eq, listing]

end MarkedFrom

theorem markedFrom_markAll (disassembly : Disassembly) {part : List Line}
    (h : part ⊆ disassembly.lines) :
    MarkedFrom disassembly { disassembly with map := disassembly.map.markAll part } := by
  constructor
  · refine congrArg (fun map => { disassembly with map := map }) ?_
    refine MemoryMap.ext_location fun address => ?_
    change _ = { disassembly.map.location address with
      labelled := ((disassembly.map.markAll part).location address).labelled }
    rw [MemoryMap.location_markAll]
  · intro address hlabelled
    simp [MemoryMap.location_markAll, hlabelled]
  · intro address hlabelled
    rw [MemoryMap.location_markAll, Bool.or_eq_true, List.contains_iff_mem] at hlabelled
    refine hlabelled.imp_right fun hmem => ?_
    rw [← filterMap_label?_lines]
    exact List.filterMap_subset Line.label? h hmem

/-- One use leaves marks of that kind, wherever the writer breaks off. -/
theorem markedFrom_after (disassembly : Disassembly) (attempt : Attempt) :
    MarkedFrom disassembly (disassembly.after attempt) := by
  have hwrite : ∀ writer, MarkedFrom disassembly (disassembly.write writer).disassembly := by
    intro writer
    rw [(disassembly.write_eq writer).2.2]
    exact disassembly.markedFrom_markAll (writer.whole_prefix _).subset
  cases attempt with
  | write writer => exact hwrite writer
  | render => exact hwrite .unbounded

theorem markedFrom_afterAll (disassembly : Disassembly) (attempts : List Attempt) :
    MarkedFrom disassembly (disassembly.afterAll attempts) := by
  induction attempts generalizing disassembly with
  | nil => exact ⟨rfl, fun _ h => h, fun _ h => Or.inl h⟩
  | cons attempt rest ih => exact (disassembly.markedFrom_after attempt).trans (ih _)

/-- A disassembly that is listed exactly as another one. -/
structure ListsAlike (first later : Disassembly) : Prop where
  render_eq : later.render.1 = first.render.1
  /-- Rendering twice gives the same text twice. -/
  render_twice_eq : later.render.2.render.1 = first.render.1
  /-- No label and no definition has got lost. -/
  lines_eq : later.lines = first.lines
  /-- Every writer takes the same and refuses in the same way. -/
  write_eq : ∀ writer, (later.write writer).writer = (first.write writer).writer ∧
    (later.write writer).failure = (first.write writer).failure
  /-- What differs are labels that were marked meanwhile, and every listing shows them again. -/
  location_eq : ∀ address, later.map.location address =
    { first.map.location address with labelled := (later.map.location address).labelled }
  labelled_of_first : ∀ address, (first.map.location address).labelled = true →
    (later.map.location address).labelled = true
  label_mem_lines : ∀ address, (later.map.location address).labelled = true →
    (first.map.location address).labelled = true ∨ .label address ∈ first.lines
  stop_eq : later.stop = first.stop

/-- **Listings do not change later ones.**  However often a disassembly is rendered or written, and
wherever the writers break off, it is then listed as if that had not been done: the text is the
same, no label has got lost, and the marks left are of labels that every listing shows in place. -/
theorem listsAlike_afterAll (disassembly : Disassembly) (attempts : List Attempt) :
    ListsAlike disassembly (disassembly.afterAll attempts) := by
  have hmarked := disassembly.markedFrom_afterAll attempts
  have hagain := hmarked.trans ((disassembly.afterAll attempts).markedFrom_after .render)
  constructor
  · rw [render_fst, render_fst, hmarked.listing_eq]
  · rw [render_fst, render_fst]
    exact hagain.listing_eq
  · exact hmarked.lines_eq
  · intro writer
    obtain ⟨hwriter, hfailure, -⟩ := (disassembly.afterAll attempts).write_eq writer
    obtain ⟨hwriter', hfailure', -⟩ := disassembly.write_eq writer
    rw [hwriter, hfailure, hwriter', hfailure', hmarked.listing_eq]
    exact ⟨rfl, rfl⟩
  · intro address
    exact congrArg (fun later => later.map.location address) hmarked.eq_first
  · exact hmarked.labelled_of_first
  · intro address hlabelled
    rw [← Line.mem_filterMap_label?_iff, filterMap_label?_lines]
    exact hmarked.mem_placed address hlabelled
  · rw [hmarked.eq_first]

end Disassembly

end Disassembler8080
