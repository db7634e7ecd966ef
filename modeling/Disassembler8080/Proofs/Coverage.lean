/-
# Which statement covers an address

The statements of a sweep that succeeds stand one behind the other from address 0 up to the stop.
So every address below the stop is covered by a statement: it is where one starts, or one of its
operand bytes.  This file says so for a row of statements, where it is a matter of adding sizes, and
then for what a sweep has found.

Main statements:

* `Tiling.exists_split_of_lt_extent`: every place inside a row belongs to one of its statements.
* `exists_covering`: every address below the stop is covered.
* `startsAt_of_next`: a statement starts where another one ends.
* `encode_prefix_of_mem`: a statement encodes the bytes from its address on.
-/
import Disassembler8080.Proofs.RoundTrip

namespace Disassembler8080

open Tiling

/-! ## 1. Rows -/

namespace Tiling

variable {forced : Address → Bool} {address : Nat} {statements before after : List Statement}
  {statement : Statement} {place : Address}

/-- **Every place inside a row belongs to a statement**: counted from the front, to the first one
that ends behind it. -/
theorem exists_split_of_lt_extent {n : Nat} (h : n < extent statements) :
    ∃ before statement after, statements = before ++ statement :: after ∧
      extent before ≤ n ∧ n < extent before + statement.size := by
  induction statements generalizing n with
  | nil => exact absurd h (by simp)
  | cons head rest ih =>
    by_cases hhead : n < head.size
    · exact ⟨[], head, rest, rfl, Nat.zero_le _, by simpa using hhead⟩
    · rw [extent_cons] at h
      obtain ⟨before, statement, after, rfl, hle, hlt⟩ := ih (n := n - head.size) (by omega)
      refine ⟨head :: before, statement, after, rfl, ?_, ?_⟩ <;> rw [extent_cons] <;> omega

/-- In a row that starts at address 0 and fits memory, the sum of the sizes before a statement is an
address. -/
theorem toNat_extent (h : extent (before ++ statement :: after) ≤ memorySize) :
    (UInt16.ofNat (extent before)).toNat = extent before := by
  have hroom : 0 + extent (before ++ statement :: after) ≤ memorySize := by rwa [Nat.zero_add]
  have hplace := toNat_of_mem_addressed hroom
  rwa [Nat.zero_add] at hplace

/-- In a row that starts at address 0 and fits memory, a statement stands at the sum of the sizes
before it. -/
theorem mem_addressed_zero_iff (h : extent statements ≤ memorySize) :
    (place, statement) ∈ addressed 0 statements ↔
      ∃ before after, statements = before ++ statement :: after ∧
        place.toNat = extent before := by
  rw [mem_addressed_iff]
  refine exists_congr fun before => exists_congr fun after => and_congr_right fun hsplit => ?_
  rw [Nat.zero_add, ← UInt16.toNat_inj, toNat_extent (hsplit ▸ h)]

theorem Fitting.left (h : Fitting forced address (before ++ after)) :
    Fitting forced address before := by
  intro entry hentry
  refine h entry ?_
  rw [addressed_append]
  exact List.mem_append_left _ hentry

theorem Fitting.right (h : Fitting forced address (before ++ after)) :
    Fitting forced (address + extent before) after := by
  intro entry hentry
  refine h entry ?_
  rw [addressed_append]
  exact List.mem_append_right _ hentry

/-- In the encoding of a fitting row, each statement is encoded where the ones before it end. -/
theorem drop_flatMap_encode (h : Fitting forced address (before ++ after)) :
    ((before ++ after).flatMap Statement.encode).drop (extent before) =
      after.flatMap Statement.encode := by
  rw [List.flatMap_append, ← length_flatMap_encode h.left, List.drop_left]

end Tiling

/-! ## 2. Sweeps -/

/-- Whether a statement starts at an address below the stop. -/
def Disassembly.StartsAt (disassembly : Disassembly) (address : Address) : Prop :=
  ∃ statement, (address, statement) ∈ disassembly.statements

variable {stream : ByteStream} {blocks : List DataBlock} {disassembly : Disassembly}
  {address place : Address} {statement : Statement}

theorem exists_split_of_mem (h : (linearSweep stream blocks).result = .ok disassembly)
    (hmem : (place, statement) ∈ disassembly.statements) :
    ∃ before after, disassembly = .ofStatements blocks (before ++ statement :: after) ∧
      place.toNat = extent before ∧
      extent (before ++ statement :: after) ≤ memorySize ∧
      Fitting (DataBlock.covers blocks) 0 (before ++ statement :: after) ∧
      (before ++ statement :: after).flatMap Statement.encode =
        stream.bytes.take (extent (before ++ statement :: after)) := by
  obtain ⟨statements, rfl, hfitting, hroom, hencode⟩ := exists_statements_of_result h
  rw [Disassembly.statements_ofStatements hroom, mem_addressed_zero_iff hroom] at hmem
  obtain ⟨before, after, rfl, hplace⟩ := hmem
  exact ⟨before, after, rfl, hplace, hroom, hfitting, hencode⟩

/-- **Every address below the stop is covered by a statement.** -/
theorem exists_covering (h : (linearSweep stream blocks).result = .ok disassembly)
    (hstop : address.toNat < disassembly.stop) :
    ∃ place statement, (place, statement) ∈ disassembly.statements ∧
      place.toNat ≤ address.toNat ∧ address.toNat < place.toNat + statement.size := by
  obtain ⟨statements, rfl, -, hroom, -⟩ := exists_statements_of_result h
  obtain ⟨before, statement, after, hsplit, hle, hlt⟩ := exists_split_of_lt_extent hstop
  have hplace := toNat_extent (hsplit ▸ hroom)
  refine ⟨UInt16.ofNat (extent before), statement, ?_, by rwa [hplace], by rwa [hplace]⟩
  rw [Disassembly.statements_ofStatements hroom, mem_addressed_zero_iff hroom]
  exact ⟨before, after, hsplit, hplace⟩

/-- **A statement starts where another one ends**, unless that is the stop. -/
theorem startsAt_of_next (h : (linearSweep stream blocks).result = .ok disassembly)
    (hmem : (place, statement) ∈ disassembly.statements)
    (hnext : address.toNat = place.toNat + statement.size)
    (hstop : address.toNat < disassembly.stop) : disassembly.StartsAt address := by
  obtain ⟨before, after, rfl, hplace, hroom, -, -⟩ := exists_split_of_mem h hmem
  change address.toNat < extent (before ++ statement :: after) at hstop
  rw [hnext, hplace, extent_append, extent_cons] at hstop
  cases after with
  | nil =>
    rw [extent_nil] at hstop
    omega
  | cons next others =>
    refine ⟨next, ?_⟩
    rw [Disassembly.statements_ofStatements hroom, mem_addressed_zero_iff hroom]
    refine ⟨before ++ [statement], others, by simp, ?_⟩
    rw [hnext, hplace, extent_append, extent_cons, extent_nil, Nat.add_zero]

/-- **A statement encodes the bytes from its address on.** -/
theorem encode_prefix_of_mem (h : (linearSweep stream blocks).result = .ok disassembly)
    (hmem : (place, statement) ∈ disassembly.statements) :
    statement.encode <+: stream.bytes.drop place.toNat := by
  obtain ⟨before, after, -, hplace, -, hfitting, hencode⟩ := exists_split_of_mem h hmem
  have hdrop := drop_flatMap_encode hfitting
  rw [hencode, List.drop_take, List.flatMap_cons] at hdrop
  have hfront : statement.encode <+: (stream.bytes.drop (extent before)).take
      (extent (before ++ statement :: after) - extent before) :=
    hdrop ▸ List.prefix_append _ _
  rw [hplace]
  exact hfront.trans (List.take_prefix _ _)

theorem suits_of_mem (h : (linearSweep stream blocks).result = .ok disassembly)
    (hmem : (place, statement) ∈ disassembly.statements) :
    statement.Suits (DataBlock.covers blocks place) := by
  obtain ⟨statements, rfl, hfitting, hroom, -⟩ := exists_statements_of_result h
  rw [Disassembly.statements_ofStatements hroom] at hmem
  exact (hfitting _ hmem).2

end Disassembler8080
