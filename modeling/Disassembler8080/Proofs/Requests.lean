/-
# Requests to a fetch, in any order

A fetch answers two kinds of request, for the first byte of a statement and for an operand byte.  A
sweep stops at the first failure, but a fetch can be asked again after a failure or an end, and goes
on where it was.  This file is about runs of any requests, whatever the replies are.

What carries the induction is one equation: the bytes that a run delivers, each numbered with the
position that it is delivered at, and behind them the bytes that the stream still holds, numbered
from the new position on, are the bytes that the stream held before, numbered from the old position
on.  A request takes the first byte off the right part and puts it at the end of the left one, or
changes neither.

Main statements:

* `Fetch.answer_cases`: all that one request can do to the bytes and to the position.
* `Fetch.zipIdx_bytes`: the equation for a run.
* `Fetch.delivers_in_order`: what runs of requests deliver from a stream.
-/
import Disassembler8080.Fetch

namespace Disassembler8080.Fetch

/-! ## 1. Requests -/

/-- A request to a fetch. -/
inductive Request where
  /-- For the first byte of a statement. -/
  | leading
  /-- For an operand byte of the statement at an address. -/
  | operand (statement : Address)
deriving DecidableEq, Repr

/-- The reply to a request. -/
inductive Reply where
  | leading (answer : Leading)
  | operand (answer : Except Failure UInt8)

/-- The byte that a reply delivers, if it does. -/
def Reply.byte? : Reply → Option UInt8
  | .leading (.byte _ value) => some value
  | .operand (.ok value) => some value
  | _ => none

/-- Answers a request. -/
def answer (fetch : Fetch) : Request → Reply × Fetch
  | .leading => (.leading fetch.leading.1, fetch.leading.2)
  | .operand statement => (.operand (fetch.operand statement).1, (fetch.operand statement).2)

/-- One request of a run, with the fetch as it was found and as it was left. -/
structure Exchange where
  before : Fetch
  request : Request
  reply : Reply
  after : Fetch

/-- The byte of an exchange and the position that it was delivered at, if one was. -/
def Exchange.delivery? (exchange : Exchange) : Option (UInt8 × Nat) :=
  exchange.reply.byte?.map fun value => (value, exchange.before.position)

/-- Makes a request. -/
def exchange (fetch : Fetch) (request : Request) : Exchange :=
  ⟨fetch, request, (fetch.answer request).1, (fetch.answer request).2⟩

/-- Makes requests one after the other, whatever the replies are. -/
def exchanges (fetch : Fetch) : List Request → List Exchange
  | [] => []
  | request :: rest => fetch.exchange request :: (fetch.answer request).2.exchanges rest

/-- The fetch as a run of requests leaves it. -/
def afterAll (fetch : Fetch) (requests : List Request) : Fetch :=
  requests.foldl (fun fetch request => (fetch.answer request).2) fetch

/-! ## 2. One request -/

variable (fetch : Fetch)

/-- **All that a request can do**: deliver the next byte of the stream if there is memory for it and
move the position on by one, or deliver nothing and leave both the bytes and the position. -/
theorem answer_cases (request : Request) :
    (∃ value, (fetch.answer request).1.byte? = some value ∧ fetch.position < memorySize ∧
      fetch.stream.bytes = value :: (fetch.answer request).2.stream.bytes ∧
      (fetch.answer request).2.position = fetch.position + 1) ∨
    ((fetch.answer request).1.byte? = none ∧
      (fetch.answer request).2.stream.bytes = fetch.stream.bytes ∧
      (fetch.answer request).2.position = fetch.position) := by
  have hnext := fetch.stream.bytes_next
  have hpeek := fetch.stream.bytes_peek
  by_cases hroom : fetch.position < memorySize
  · -- both kinds of request take from the stream
    rcases hstream : fetch.stream.next with ⟨found, rest⟩
    rw [hstream] at hnext
    cases request with
    | leading =>
      simp only [answer, leading, if_pos hroom, hstream]
      cases found with
      | byte value => exact Or.inl ⟨value, rfl, hroom, hnext, rfl⟩
      | ended => exact Or.inr ⟨rfl, hnext.symm, rfl⟩
      | failed text => exact Or.inr ⟨rfl, hnext.symm, rfl⟩
    | operand statement =>
      simp only [answer, operand, if_pos hroom, hstream]
      cases found with
      | byte value => exact Or.inl ⟨value, rfl, hroom, hnext, rfl⟩
      | ended => exact Or.inr ⟨rfl, hnext.symm, rfl⟩
      | failed text => exact Or.inr ⟨rfl, hnext.symm, rfl⟩
  · -- memory is full: one kind looks at the stream, the other leaves it alone
    cases request with
    | leading =>
      rcases hstream : fetch.stream.peek with ⟨found, rest⟩
      rw [hstream] at hpeek
      simp only [answer, leading, if_neg hroom, hstream]
      cases found with
      | byte value => exact Or.inr ⟨rfl, hpeek.symm, rfl⟩
      | ended => exact Or.inr ⟨rfl, hpeek.symm, rfl⟩
      | failed text => exact Or.inr ⟨rfl, hpeek.symm, rfl⟩
    | operand statement =>
      have hoperand : fetch.operand statement = (.error (.pastMemory statement), fetch) :=
        if_neg hroom
      rw [answer, hoperand]
      exact Or.inr ⟨rfl, rfl, rfl⟩

/-- The position after a request. -/
theorem position_answer (request : Request) :
    (fetch.answer request).2.position =
      fetch.position + (fetch.answer request).1.byte?.toList.length := by
  rcases fetch.answer_cases request with ⟨value, hbyte, -, -, hposition⟩ | ⟨hbyte, -, hposition⟩
  · rw [hbyte, hposition]
    rfl
  · rw [hbyte, hposition]
    rfl

theorem position_answer_le (h : fetch.position ≤ memorySize) (request : Request) :
    (fetch.answer request).2.position ≤ memorySize := by
  rcases fetch.answer_cases request with ⟨_, -, hroom, -, hposition⟩ | ⟨-, -, hposition⟩
  · omega
  · omega

theorem address_of_leading {address : Address} {value : UInt8}
    (h : fetch.leading.1 = .byte address value) : address.toNat = fetch.position := by
  have hroom := position_lt_of_leading_byte h
  unfold leading at h
  rw [if_pos hroom] at h
  split at h
  · cases h
    exact UInt16.toNat_ofNat_of_lt' hroom
  · cases h
  · cases h

theorem leading_of_full (h : fetch.position = memorySize) :
    fetch.leading.1 = .ended ∨ fetch.leading.1 = .surplus ∨
      ∃ text, fetch.leading.1 = .failed text := by
  unfold leading
  rw [if_neg (by omega)]
  split
  · exact Or.inr (Or.inl rfl)
  · exact Or.inl rfl
  · exact Or.inr (Or.inr ⟨_, rfl⟩)

/-- With memory full, a request for an operand byte fails and does nothing. -/
theorem operand_of_full (h : fetch.position = memorySize) (statement : Address) :
    fetch.operand statement = (.error (.pastMemory statement), fetch) := by
  unfold operand
  rw [if_neg (by omega)]

/-! ## 3. Runs -/

theorem take_zipIdx (bytes : List UInt8) (count : Nat) :
    bytes.zipIdx.take count = (bytes.take count).zipIdx := by
  refine List.ext_getElem? fun i => ?_
  by_cases hi : i < count
  · simp [List.getElem?_take_of_lt hi, List.getElem?_zipIdx]
  · simp [List.getElem?_take_eq_none (Nat.le_of_not_lt hi), List.getElem?_zipIdx]

/-- An exchange of a run is a request to a fetch that is not past the end of memory. -/
theorem exists_of_mem_exchanges {requests : List Request} {entry : Exchange}
    (hposition : fetch.position ≤ memorySize) (h : entry ∈ fetch.exchanges requests) :
    ∃ before request, entry = exchange before request ∧ before.position ≤ memorySize := by
  induction requests generalizing fetch with
  | nil => exact absurd h (by simp [exchanges])
  | cons request rest ih =>
    rcases List.mem_cons.mp h with rfl | hrest
    · exact ⟨fetch, request, rfl, hposition⟩
    · exact ih _ (fetch.position_answer_le hposition request) hrest

/-- **Nothing is lost, repeated or misplaced in a run**: what it delivers and what the stream still
holds, numbered by positions, are what the stream held. -/
theorem zipIdx_bytes (requests : List Request) :
    fetch.stream.bytes.zipIdx fetch.position =
      (fetch.exchanges requests).filterMap Exchange.delivery? ++
        (fetch.afterAll requests).stream.bytes.zipIdx (fetch.afterAll requests).position := by
  induction requests generalizing fetch with
  | nil => rfl
  | cons request rest ih =>
    have hrest := ih (fetch.answer request).2
    rw [exchanges, afterAll, List.foldl_cons, ← afterAll]
    rcases fetch.answer_cases request with
      ⟨value, hbyte, -, hbytes, hposition⟩ | ⟨hbyte, hbytes, hposition⟩
    · have hdelivery : (fetch.exchange request).delivery? = some (value, fetch.position) := by
        simp [Exchange.delivery?, exchange, hbyte]
      rw [hbytes, List.zipIdx_cons, List.filterMap_cons_some hdelivery, List.cons_append, ← hrest,
        hposition]
    · have hdelivery : (fetch.exchange request).delivery? = none := by
        simp [Exchange.delivery?, exchange, hbyte]
      rw [List.filterMap_cons_none hdelivery, ← hrest, hbytes, hposition]

/-- A run moves the position on by the bytes that it delivers. -/
theorem position_afterAll (requests : List Request) :
    (fetch.afterAll requests).position =
      fetch.position + ((fetch.exchanges requests).filterMap Exchange.delivery?).length := by
  induction requests generalizing fetch with
  | nil => rfl
  | cons request rest ih =>
    rw [afterAll, List.foldl_cons, ← afterAll, ih, exchanges, position_answer, List.filterMap_cons,
      Exchange.delivery?]
    cases hbyte : (fetch.answer request).1.byte? with
    | none => simp [exchange, hbyte]
    | some value =>
      simp [exchange, hbyte]
      omega

theorem position_afterAll_le (h : fetch.position ≤ memorySize) (requests : List Request) :
    (fetch.afterAll requests).position ≤ memorySize := by
  induction requests generalizing fetch with
  | nil => exact h
  | cons request rest ih => exact ih _ (fetch.position_answer_le h request)

/-! ## 4. What runs deliver -/

/-- What is asked of a run of exchanges that starts at position 0 over a stream of bytes and leaves
the fetch `last`. -/
structure DeliversInOrder (bytes : List UInt8) (run : List Exchange) (last : Fetch) : Prop where
  /-- The bytes delivered are the first ones of the stream, each delivered at its own position. -/
  delivered_eq : run.filterMap Exchange.delivery? = (bytes.take last.position).zipIdx
  position_le_length : last.position ≤ bytes.length
  position_le : last.position ≤ memorySize
  address_eq : ∀ entry ∈ run, ∀ address value, entry.reply = .leading (.byte address value) →
    address.toNat = entry.before.position
  /-- The position grows by one with each byte delivered, and not otherwise. -/
  position_after : ∀ entry ∈ run, entry.after.position =
    match entry.reply.byte? with
    | some _ => entry.before.position + 1
    | none => entry.before.position
  position_after_le : ∀ entry ∈ run, entry.after.position ≤ memorySize
  leading_full : ∀ entry ∈ run, entry.before.position = memorySize → entry.request = .leading →
    entry.reply = .leading .ended ∨ entry.reply = .leading .surplus ∨
      ∃ text, entry.reply = .leading (.failed text)
  operand_full : ∀ entry ∈ run, entry.before.position = memorySize → ∀ statement,
    entry.request = .operand statement →
      entry.reply = .operand (.error (.pastMemory statement)) ∧ entry.after = entry.before

/-- **What runs of requests deliver.** Whatever a stream answers, and however requests of both kinds
follow each other, go on after failures and after ends: the bytes delivered are the first ones of
the stream in their order, as many as the position says, each at its own position.  Once memory is
full, no first byte is delivered, and a request for an operand byte fails without touching the
stream. -/
theorem delivers_in_order (stream : ByteStream) (requests : List Request) :
    DeliversInOrder stream.bytes (exchanges { stream := stream } requests)
      (afterAll { stream := stream } requests) := by
  have hstart : ({ stream := stream } : Fetch).position ≤ memorySize := Nat.zero_le _
  have hlength := position_afterAll { stream := stream } requests
  have hnumbered := zipIdx_bytes { stream := stream } requests
  rw [Nat.zero_add] at hlength
  constructor
  · rw [← take_zipIdx, hnumbered, hlength, List.take_left]
  · have htotal := congrArg List.length hnumbered
    rw [List.length_append, List.length_zipIdx, ← hlength] at htotal
    change stream.bytes.length = _ at htotal
    omega
  · exact position_afterAll_le _ hstart requests
  · intro entry hentry address value hreply
    obtain ⟨before, request, rfl, -⟩ := exists_of_mem_exchanges _ hstart hentry
    cases request with
    | leading => exact before.address_of_leading (Reply.leading.inj hreply)
    | operand statement => exact absurd hreply (by simp [exchange, answer])
  · intro entry hentry
    obtain ⟨before, request, rfl, -⟩ := exists_of_mem_exchanges _ hstart hentry
    have hposition := before.position_answer request
    change (before.answer request).2.position =
      match (before.answer request).1.byte? with
      | some _ => before.position + 1
      | none => before.position
    rw [hposition]
    cases (before.answer request).1.byte? <;> rfl
  · intro entry hentry
    obtain ⟨before, request, rfl, hbefore⟩ := exists_of_mem_exchanges _ hstart hentry
    exact before.position_answer_le hbefore request
  · intro entry hentry hfull hrequest
    obtain ⟨before, request, rfl, -⟩ := exists_of_mem_exchanges _ hstart hentry
    cases (hrequest : request = .leading)
    rcases before.leading_of_full hfull with hended | hsurplus | ⟨text, hfailed⟩
    · exact Or.inl (congrArg Reply.leading hended)
    · exact Or.inr (Or.inl (congrArg Reply.leading hsurplus))
    · exact Or.inr (Or.inr ⟨text, congrArg Reply.leading hfailed⟩)
  · intro entry hentry hfull statement hrequest
    obtain ⟨before, request, rfl, -⟩ := exists_of_mem_exchanges _ hstart hentry
    cases (hrequest : request = .operand statement)
    have hoperand := before.operand_of_full hfull statement
    exact ⟨congrArg Reply.operand (congrArg Prod.fst hoperand), congrArg Prod.snd hoperand⟩

/-- A run goes on behind an end and a failure that the stream reports once each. -/
example :
    (exchanges { stream := [.data [0xc3], .pause, .failure "unplugged", .data [0x10]] }
        [.leading, .operand 0, .operand 0, .operand 0, .leading]).filterMap
      Exchange.delivery? = [(0xc3, 0), (0x10, 1)] := by
  decide

end Disassembler8080.Fetch
