/-
# What a stream still supplies

A stream may fail or end and go on afterwards, but a sweep never sees what comes after: it stops at
the first end or failure that it meets.  So all that matters of a stream are the bytes in front of
that event, its *ready* bytes, and whether the event is a failure.  And all that matters of a fetch
is its *window*: the ready bytes that memory still has room for.

How the ready bytes are cut into pieces does not matter, and neither do empty pieces.

Main statements:

* `ByteStream.next_of_ready_cons` and `ByteStream.next_of_ready_nil`: what a stream answers.
* `Fetch.readStatement_of_front?_some`: a statement in front of the window is read, and the fetch
  moves on behind it.
* `Fetch.readStatement_of_front?_none`: where the window is too short, reading gives the failure
  that the shortage is due to.
-/
import Disassembler8080.Proofs.Tiling
import Disassembler8080.Sweep

namespace Disassembler8080

/-! ## 1. Streams -/

namespace ByteStream

/-- The bytes that a stream delivers before it first fails or ends. -/
def ready : ByteStream → List UInt8
  | .data bytes :: rest => bytes ++ ready rest
  | _ => []

/-- The failure that a stream meets behind its ready bytes, unless it ends there. -/
def failure? : ByteStream → Option String
  | .data _ :: rest => failure? rest
  | .failure text :: _ => some text
  | _ => none

/-- The answer of a stream that has no ready bytes. -/
def Answer.ofFailure? : Option String → Answer
  | some text => .failed text
  | none => .ended

/-- The ready bytes are the first of all bytes. -/
theorem ready_prefix_bytes (stream : ByteStream) : stream.ready <+: stream.bytes := by
  induction stream with
  | nil => exact List.nil_prefix
  | cons segment rest ih =>
    cases segment with
    | data bytes => exact (List.prefix_append_right_inj bytes).mpr ih
    | failure text => exact List.nil_prefix
    | pause => exact List.nil_prefix

@[simp] theorem ready_ofBytes (bytes : List UInt8) : (ofBytes bytes).ready = bytes := by
  simp [ofBytes, ready]

@[simp] theorem bytes_ofBytes (content : List UInt8) : (ofBytes content).bytes = content :=
  List.append_nil content

@[simp] theorem failure?_ofBytes (bytes : List UInt8) : (ofBytes bytes).failure? = none := rfl

/-- A stream that delivers bytes and nothing else, in whatever pieces. -/
def DataOnly (stream : ByteStream) : Prop := ∀ segment ∈ stream, ∃ bytes, segment = .data bytes

theorem dataOnly_ofBytes (bytes : List UInt8) : (ofBytes bytes).DataOnly := by
  intro segment hsegment
  exact ⟨bytes, List.mem_singleton.mp hsegment⟩

theorem DataOnly.ready_eq {stream : ByteStream} (h : stream.DataOnly) :
    stream.ready = stream.bytes := by
  induction stream with
  | nil => rfl
  | cons segment rest ih =>
    obtain ⟨⟨content, rfl⟩, hrest⟩ := List.forall_mem_cons.mp h
    rw [ready, bytes, ih hrest]

theorem DataOnly.failure?_eq {stream : ByteStream} (h : stream.DataOnly) :
    stream.failure? = none := by
  induction stream with
  | nil => rfl
  | cons segment rest ih =>
    obtain ⟨⟨content, rfl⟩, hrest⟩ := List.forall_mem_cons.mp h
    rw [failure?, ih hrest]

/-- A stream with ready bytes delivers the first of them and keeps the others. -/
theorem next_of_ready_cons {stream : ByteStream} {value : UInt8} {bytes : List UInt8}
    (h : stream.ready = value :: bytes) :
    ∃ rest : ByteStream, stream.next = (.byte value, rest) ∧ rest.ready = bytes ∧
      rest.failure? = stream.failure? := by
  fun_induction next stream with
  | case1 => exact absurd h (by simp [ready])
  | case2 rest ih => exact ih h
  | case3 first others rest =>
    rw [ready, List.cons_append, List.cons.injEq] at h
    obtain ⟨rfl, hothers⟩ := h
    exact ⟨_, rfl, hothers, rfl⟩
  | case4 text rest => exact absurd h (by simp [ready])
  | case5 rest => exact absurd h (by simp [ready])

/-- A stream without ready bytes reports the event that it has come to. -/
theorem next_of_ready_nil {stream : ByteStream} (h : stream.ready = []) :
    ∃ rest : ByteStream, stream.next = (.ofFailure? stream.failure?, rest) := by
  fun_induction next stream with
  | case1 => exact ⟨_, rfl⟩
  | case2 rest ih => exact ih h
  | case3 first others rest => exact absurd h (by simp [ready])
  | case4 text rest => exact ⟨_, rfl⟩
  | case5 rest => exact ⟨_, rfl⟩

/-- Looking gives the answer that taking gives, and leaves some stream behind. -/
theorem peek_of_next {stream rest : ByteStream} {answer : Answer}
    (h : stream.next = (answer, rest)) : ∃ kept : ByteStream, stream.peek = (answer, kept) :=
  ⟨stream.peek.2, Prod.ext (by rw [stream.peek_fst, h]) rfl⟩

end ByteStream

/-! ## 2. Fetches -/

namespace Fetch

/-- The bytes that can still be fetched: those that are ready, as far as memory has room. -/
def window (fetch : Fetch) : List UInt8 :=
  fetch.stream.ready.take (memorySize - fetch.position)

/-- Why the statement at an address cannot be read to its end: memory ends first, or the input
does. -/
def shortage (fetch : Fetch) (statement : Address) : Failure :=
  if fetch.position + fetch.stream.ready.length < memorySize then
    match fetch.stream.failure? with
    | some text => .inputOutput text
    | none => .cutShort statement
  else .pastMemory statement

/-- A fetch that is `count` bytes of the window further on in the same input. -/
structure Ahead (fetch : Fetch) (count : Nat) (later : Fetch) : Prop where
  le_length : count ≤ fetch.window.length
  position_eq : later.position = fetch.position + count
  ready_eq : later.stream.ready = fetch.stream.ready.drop count
  failure?_eq : later.stream.failure? = fetch.stream.failure?

namespace Ahead

variable {fetch later : Fetch} {count : Nat}

theorem refl (fetch : Fetch) : Ahead fetch 0 fetch where
  le_length := Nat.zero_le _
  position_eq := rfl
  ready_eq := rfl
  failure?_eq := rfl

/-- The bytes of the window that were fetched are no longer in it. -/
theorem window_eq (h : Ahead fetch count later) : later.window = fetch.window.drop count := by
  rw [window, window, h.ready_eq, h.position_eq, List.drop_take, Nat.sub_add_eq]

theorem trans {latest : Fetch} {more : Nat} (first : Ahead fetch count later)
    (second : Ahead later more latest) : Ahead fetch (count + more) latest where
  le_length := by
    have hle := second.le_length
    rw [first.window_eq, List.length_drop] at hle
    have := first.le_length
    omega
  position_eq := by rw [second.position_eq, first.position_eq, Nat.add_assoc]
  ready_eq := by rw [second.ready_eq, first.ready_eq, List.drop_drop]
  failure?_eq := second.failure?_eq.trans first.failure?_eq

/-- The end of the ready bytes stays where it was. -/
theorem position_add_length (h : Ahead fetch count later) :
    later.position + later.stream.ready.length =
      fetch.position + fetch.stream.ready.length := by
  have hle := h.le_length
  rw [window, List.length_take] at hle
  rw [h.position_eq, h.ready_eq, List.length_drop]
  omega

/-- And so does what a shortage is due to. -/
theorem shortage_eq (h : Ahead fetch count later) (statement : Address) :
    later.shortage statement = fetch.shortage statement := by
  simp only [shortage, h.position_add_length, h.failure?_eq]

end Ahead

/-! ## 3. Reading from the window -/

variable {fetch : Fetch} {value : UInt8} {rest : List UInt8}

/-- A window with a byte in front: memory has room, and the byte is ready. -/
theorem of_window_cons (h : fetch.window = value :: rest) :
    fetch.position < memorySize ∧ ∃ bytes, fetch.stream.ready = value :: bytes := by
  rw [window] at h
  cases hready : fetch.stream.ready with
  | nil =>
    rw [hready, List.take_nil] at h
    exact absurd h (by simp)
  | cons first bytes =>
    cases hroom : memorySize - fetch.position with
    | zero =>
      rw [hroom, List.take_zero] at h
      exact absurd h (by simp)
    | succ room =>
      rw [hroom, hready, List.take_succ_cons, List.cons.injEq] at h
      obtain ⟨rfl, -⟩ := h
      exact ⟨by omega, bytes, rfl⟩

/-- An empty window: memory is full, or no byte is ready. -/
theorem of_window_nil (h : fetch.window = []) (hroom : fetch.position < memorySize) :
    fetch.stream.ready = [] := by
  rw [window, List.take_eq_nil_iff] at h
  rcases h with hzero | hnil
  · omega
  · exact hnil

theorem ahead_one (h : fetch.window = value :: rest) :
    ∃ stream : ByteStream, fetch.stream.next = (.byte value, stream) ∧
      Ahead fetch 1 ⟨stream, fetch.position + 1⟩ := by
  obtain ⟨-, bytes, hready⟩ := of_window_cons h
  obtain ⟨stream, hnext, hbytes, hfailure⟩ := ByteStream.next_of_ready_cons hready
  refine ⟨stream, hnext, ?_, rfl, ?_, hfailure⟩
  · rw [h, List.length_cons]
    omega
  · rw [hready, hbytes, List.drop_one, List.tail_cons]

theorem leading_of_window_cons (h : fetch.window = value :: rest) :
    ∃ later, fetch.leading = (.byte (UInt16.ofNat fetch.position) value, later) ∧
      Ahead fetch 1 later := by
  obtain ⟨stream, hnext, hahead⟩ := ahead_one h
  refine ⟨_, ?_, hahead⟩
  rw [leading, if_pos (of_window_cons h).1, hnext]

theorem operand_of_window_cons (h : fetch.window = value :: rest) (statement : Address) :
    ∃ later, fetch.operand statement = (.ok value, later) ∧ Ahead fetch 1 later := by
  obtain ⟨stream, hnext, hahead⟩ := ahead_one h
  refine ⟨_, ?_, hahead⟩
  rw [operand, if_pos (of_window_cons h).1, hnext]

/-- Where the window is empty, asking for an operand byte gives the failure that the shortage is
due to. -/
theorem operand_of_window_nil (h : fetch.window = []) (statement : Address) :
    ∃ last, fetch.operand statement = (.error (fetch.shortage statement), last) := by
  unfold operand shortage
  by_cases hroom : fetch.position < memorySize
  · have hready := of_window_nil h hroom
    obtain ⟨stream, hnext⟩ := ByteStream.next_of_ready_nil hready
    have hshort : fetch.position + fetch.stream.ready.length < memorySize := by
      rw [hready]
      exact hroom
    rw [if_pos hroom, if_pos hshort, hnext]
    cases fetch.stream.failure? <;> exact ⟨_, rfl⟩
  · rw [if_neg hroom, if_neg (by omega)]
    exact ⟨fetch, rfl⟩

/-- What is found where the window is empty and a statement should begin: more input than memory has
room for, or the event that the stream has come to. -/
theorem leading_of_window_nil (h : fetch.window = []) :
    fetch.leading.1 =
      match fetch.stream.ready, fetch.stream.failure? with
      | _ :: _, _ => .surplus
      | [], some text => .failed text
      | [], none => .ended := by
  unfold leading
  by_cases hroom : fetch.position < memorySize
  · have hready := of_window_nil h hroom
    obtain ⟨stream, hnext⟩ := ByteStream.next_of_ready_nil hready
    rw [if_pos hroom, hready, hnext]
    cases fetch.stream.failure? <;> rfl
  · -- memory is full, so the stream is only looked at
    rw [if_neg hroom]
    cases hready : fetch.stream.ready with
    | nil =>
      obtain ⟨stream, hnext⟩ := ByteStream.next_of_ready_nil hready
      obtain ⟨kept, hpeek⟩ := ByteStream.peek_of_next hnext
      rw [hpeek]
      cases fetch.stream.failure? <;> rfl
    | cons first bytes =>
      obtain ⟨stream, hnext, -⟩ := ByteStream.next_of_ready_cons hready
      obtain ⟨kept, hpeek⟩ := ByteStream.peek_of_next hnext
      rw [hpeek]

/-! ## 4. Reading statements -/

/-- An operand in front of the window is read, and the fetch moves on behind it. -/
theorem readOperand_of_front?_some {width : OperandWidth} {operand : Operand}
    (h : Operand.front? width fetch.window = some operand) (statement : Address) :
    ∃ later, fetch.readOperand statement width = (.ok operand, later) ∧
      Ahead fetch (width.size - 1) later := by
  cases width with
  | none =>
    cases h
    exact ⟨fetch, rfl, .refl fetch⟩
  | byte =>
    cases hwindow : fetch.window with
    | nil => exact absurd h (by simp [hwindow, Operand.front?])
    | cons value rest =>
      rw [hwindow] at h
      cases h
      obtain ⟨later, hfirst, hahead⟩ := operand_of_window_cons hwindow statement
      exact ⟨later, by rw [readOperand, hfirst], hahead⟩
  | word =>
    rcases hwindow : fetch.window with _ | ⟨low, _ | ⟨high, rest⟩⟩
    · exact absurd h (by simp [hwindow, Operand.front?])
    · exact absurd h (by simp [hwindow, Operand.front?])
    · rw [hwindow] at h
      cases h
      obtain ⟨later, hfirst, hahead⟩ := operand_of_window_cons hwindow statement
      have hnext : later.window = high :: rest := by
        rw [hahead.window_eq, hwindow, List.drop_one, List.tail_cons]
      obtain ⟨latest, hsecond, hmore⟩ := operand_of_window_cons hnext statement
      exact ⟨latest, by simp only [readOperand, hfirst, hsecond], hahead.trans hmore⟩

theorem readOperand_of_front?_none {width : OperandWidth}
    (h : Operand.front? width fetch.window = none) (statement : Address) :
    ∃ last, fetch.readOperand statement width = (.error (fetch.shortage statement), last) := by
  cases width with
  | none => exact absurd h (by simp [Operand.front?])
  | byte =>
    cases hwindow : fetch.window with
    | nil =>
      obtain ⟨last, hfirst⟩ := operand_of_window_nil hwindow statement
      exact ⟨last, by rw [readOperand, hfirst]⟩
    | cons value rest => exact absurd h (by simp [hwindow, Operand.front?])
  | word =>
    rcases hwindow : fetch.window with _ | ⟨low, _ | ⟨high, rest⟩⟩
    · obtain ⟨last, hfirst⟩ := operand_of_window_nil hwindow statement
      exact ⟨last, by rw [readOperand, hfirst]⟩
    · obtain ⟨later, hfirst, hahead⟩ := operand_of_window_cons hwindow statement
      have hnext : later.window = [] := by
        rw [hahead.window_eq, hwindow, List.drop_one, List.tail_cons]
      obtain ⟨last, hsecond⟩ := operand_of_window_nil hnext statement
      rw [hahead.shortage_eq] at hsecond
      exact ⟨last, by simp only [readOperand, hfirst, hsecond]⟩
    · exact absurd h (by simp [hwindow, Operand.front?])

/-- **A statement in front of the window is read**, once its first byte has been fetched, and the
fetch moves on behind it. -/
theorem readStatement_of_front?_some {forced : Bool} {first : UInt8} {statement : Statement}
    (h : Statement.front? forced (first :: fetch.window) = some statement) (address : Address) :
    ∃ later, fetch.readStatement forced address first = (.ok statement, later) ∧
      Ahead fetch (statement.size - 1) later := by
  cases forced with
  | true =>
    cases h
    exact ⟨fetch, rfl, .refl fetch⟩
  | false =>
    cases hform : InstructionForm.ofOpcode? first with
    | none =>
      simp only [Statement.front?, hform] at h
      cases h
      exact ⟨fetch, by simp only [readStatement, hform], .refl fetch⟩
    | some form =>
      simp only [Statement.front?, hform] at h
      obtain ⟨operand, hoperand, rfl⟩ := Option.map_eq_some_iff.mp h
      obtain ⟨later, hread, hahead⟩ := readOperand_of_front?_some hoperand address
      exact ⟨later, by simp only [readStatement, hform, hread], hahead⟩

/-- **Where the window is too short for a statement**, reading it gives the failure that the
shortage is due to. -/
theorem readStatement_of_front?_none {forced : Bool} {first : UInt8}
    (h : Statement.front? forced (first :: fetch.window) = none) (address : Address) :
    ∃ last, fetch.readStatement forced address first = (.error (fetch.shortage address), last) := by
  cases forced with
  | true => exact absurd h (by simp [Statement.front?])
  | false =>
    cases hform : InstructionForm.ofOpcode? first with
    | none => exact absurd h (by simp [Statement.front?, hform])
    | some form =>
      simp only [Statement.front?, hform] at h
      obtain ⟨last, hread⟩ := readOperand_of_front?_none (Option.map_eq_none_iff.mp h) address
      exact ⟨last, by simp only [readStatement, hform, hread]⟩

end Fetch

end Disassembler8080
