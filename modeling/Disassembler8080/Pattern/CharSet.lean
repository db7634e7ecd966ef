/-
# Sets of characters

A set of characters is a list of intervals of code points, in ascending order and with gaps between
them.  The code points from 0xd800 to 0xdfff are no characters, so 0xd7ff and 0xe000 are neighbours.

Main statements: `contains_insert`, `contains_remove`, `contains_union`, `contains_difference`,
`contains_intersection` and `contains_complement` say which characters the results hold.
-/

namespace Disassembler8080.Pattern

/-- The code points from one to another, both ends included. -/
structure Interval where
  first : Nat
  last : Nat
deriving DecidableEq, Repr

/-- A set of characters. -/
structure CharSet where
  intervals : List Interval
deriving DecidableEq, Repr

/-- The last code point. -/
def lastCodePoint : Nat := 0x10ffff

/-- The code point of the character after another. -/
def codePointAfter (n : Nat) : Nat := if n = 0xd7ff then 0xe000 else n + 1

/-- The code point of the character before another. -/
def codePointBefore (n : Nat) : Nat := if n = 0xe000 then 0xd7ff else n - 1

/-- No character lies between two neighbours. -/
theorem codePointAfter_le_toNat {n : Nat} {c : Char} (h : n < c.toNat) :
    codePointAfter n ≤ c.toNat := by
  have valid : c.toNat < 0xd800 ∨ 0xdfff < c.toNat ∧ c.toNat < 0x110000 := c.valid
  unfold codePointAfter
  split <;> omega

theorem toNat_le_codePointBefore {n : Nat} {c : Char} (h : c.toNat < n) :
    c.toNat ≤ codePointBefore n := by
  have valid : c.toNat < 0xd800 ∨ 0xdfff < c.toNat ∧ c.toNat < 0x110000 := c.valid
  unfold codePointBefore
  split <;> omega

theorem lt_codePointAfter (n : Nat) : n < codePointAfter n := by
  unfold codePointAfter
  split <;> omega

theorem codePointBefore_lt {n : Nat} (h : 0 < n) : codePointBefore n < n := by
  unfold codePointBefore
  split <;> omega

namespace Interval

/-- Whether a character lies in an interval. -/
def contains (i : Interval) (c : Char) : Bool := i.first ≤ c.toNat && c.toNat ≤ i.last

/-- The part of an interval that lies in another. -/
def overlap? (i j : Interval) : Option Interval :=
  let first := max i.first j.first
  let last := min i.last j.last
  if first ≤ last then some ⟨first, last⟩ else none

/-- What is left of an interval without another. -/
def without (i removed : Interval) : List Interval :=
  (if i.first < removed.first then [⟨i.first, min i.last (codePointBefore removed.first)⟩] else [])
    ++ if removed.last < i.last then [⟨max i.first (codePointAfter removed.last), i.last⟩] else []

theorem contains_overlap? (i j : Interval) (c : Char) :
    ((i.overlap? j).any (·.contains c)) = (i.contains c && j.contains c) := by
  rw [Bool.eq_iff_iff]
  unfold overlap?
  dsimp only
  split <;> simp [contains] <;> omega

theorem contains_without (i removed : Interval) (c : Char) :
    ((i.without removed).any (·.contains c)) = (i.contains c && !removed.contains c) := by
  rw [Bool.eq_iff_iff]
  have after := lt_codePointAfter removed.last
  have le_before := @toNat_le_codePointBefore removed.first c
  have after_le := @codePointAfter_le_toNat removed.last c
  have before := @codePointBefore_lt removed.first
  unfold without
  split <;> split <;> simp [contains] <;> omega

end Interval

namespace CharSet

/-! ## 1. Membership -/

/-- Whether a character belongs to a set. -/
def contains (set : CharSet) (c : Char) : Bool := set.intervals.any (·.contains c)

/-- The set without a character. -/
def none : CharSet := ⟨[]⟩

/-- All characters. -/
def all : CharSet := ⟨[⟨0, lastCodePoint⟩]⟩

/-- Whether a set has no character. -/
def isEmpty (set : CharSet) : Bool := set.intervals.isEmpty

/-- Whether all characters of a set belong to ASCII. -/
def isAscii (set : CharSet) : Bool := set.intervals.all (·.last < 0x80)

@[simp] theorem contains_none (c : Char) : none.contains c = false := rfl

theorem contains_of_isEmpty {set : CharSet} (h : set.isEmpty = true) (c : Char) :
    set.contains c = false := by
  rw [contains, List.isEmpty_iff.mp h, List.any_nil]

theorem contains_all (c : Char) : all.contains c = true := by
  have valid : c.toNat < 0xd800 ∨ 0xdfff < c.toNat ∧ c.toNat < 0x110000 := c.valid
  simp [contains, all, Interval.contains, lastCodePoint]
  omega

/-! ## 2. Joining -/

/-- Intervals with one more, which is joined with those that it touches. -/
def insertInterval (i : Interval) : List Interval → List Interval
  | [] => [i]
  | j :: rest =>
    if codePointAfter i.last < j.first then i :: j :: rest
    else if codePointAfter j.last < i.first then j :: insertInterval i rest
    else insertInterval ⟨min i.first j.first, max i.last j.last⟩ rest

/-- A set with the characters of an interval. -/
def insert (set : CharSet) (i : Interval) : CharSet := ⟨insertInterval i set.intervals⟩

/-- The characters of two sets. -/
def union (a b : CharSet) : CharSet := b.intervals.foldl insert a

/-- Two intervals that touch are joined without a gain or a loss. -/
theorem contains_join {i j : Interval} (h : ¬codePointAfter i.last < j.first)
    (h' : ¬codePointAfter j.last < i.first) (c : Char) :
    (Interval.mk (min i.first j.first) (max i.last j.last)).contains c =
      (i.contains c || j.contains c) := by
  rw [Bool.eq_iff_iff]
  have hi := @codePointAfter_le_toNat i.last c
  have hj := @codePointAfter_le_toNat j.last c
  simp [Interval.contains]
  omega

theorem any_insertInterval (i : Interval) (intervals : List Interval) (c : Char) :
    (insertInterval i intervals).any (·.contains c) =
      (i.contains c || intervals.any (·.contains c)) := by
  induction intervals generalizing i with
  | nil => rfl
  | cons j rest ih =>
    unfold insertInterval
    split
    · rfl
    · next h =>
      split
      · simp [ih, Bool.or_left_comm]
      · next h' => rw [ih, contains_join h h', List.any_cons, Bool.or_assoc]

/-- An insertion adds the characters of the interval and no others. -/
theorem contains_insert (set : CharSet) (i : Interval) (c : Char) :
    (set.insert i).contains c = (i.contains c || set.contains c) :=
  any_insertInterval i set.intervals c

/-- A union holds what either set holds. -/
theorem contains_union (a b : CharSet) (c : Char) :
    (a.union b).contains c = (a.contains c || b.contains c) := by
  obtain ⟨intervals⟩ := b
  unfold union
  induction intervals generalizing a with
  | nil => simp [contains]
  | cons i rest ih =>
    rw [List.foldl_cons, ih, contains_insert]
    simp only [contains, List.any_cons]
    rw [Bool.or_assoc, Bool.or_left_comm]

theorem contains_foldl_union (a : CharSet) (sets : List CharSet) (c : Char) :
    (sets.foldl union a).contains c = (a.contains c || sets.any (·.contains c)) := by
  induction sets generalizing a with
  | nil => simp
  | cons set rest ih => rw [List.foldl_cons, ih, contains_union, List.any_cons, Bool.or_assoc]

/-! ## 3. Taking away -/

/-- A set without the characters of an interval. -/
def remove (set : CharSet) (i : Interval) : CharSet := ⟨set.intervals.flatMap (·.without i)⟩

/-- The characters of a set that another one does not hold. -/
def difference (a b : CharSet) : CharSet := b.intervals.foldl remove a

/-- The characters that a set does not hold. -/
def complement (set : CharSet) : CharSet := all.difference set

/-- The characters that both sets hold. -/
def intersection (a b : CharSet) : CharSet :=
  ⟨a.intervals.flatMap fun i => b.intervals.filterMap i.overlap?⟩

/-- A removal takes away the characters of the interval and no others. -/
theorem contains_remove (set : CharSet) (i : Interval) (c : Char) :
    (set.remove i).contains c = (set.contains c && !i.contains c) := by
  obtain ⟨intervals⟩ := set
  induction intervals with
  | nil => rfl
  | cons j rest ih =>
    simp only [contains, remove, List.flatMap_cons, List.any_append, List.any_cons,
      Interval.contains_without] at ih ⊢
    rw [ih, Bool.and_or_distrib_right]

/-- A difference holds what the first set holds and the second one does not. -/
theorem contains_difference (a b : CharSet) (c : Char) :
    (a.difference b).contains c = (a.contains c && !b.contains c) := by
  obtain ⟨intervals⟩ := b
  unfold difference
  induction intervals generalizing a with
  | nil => simp [contains]
  | cons i rest ih =>
    rw [List.foldl_cons, ih, contains_remove]
    simp [contains, Bool.and_assoc]

/-- A complement holds what the set does not hold. -/
theorem contains_complement (set : CharSet) (c : Char) :
    set.complement.contains c = !set.contains c := by
  rw [complement, contains_difference, contains_all, Bool.true_and]

/-- An intersection holds what both sets hold. -/
theorem contains_intersection (a b : CharSet) (c : Char) :
    (a.intersection b).contains c = (a.contains c && b.contains c) := by
  obtain ⟨left⟩ := a
  obtain ⟨right⟩ := b
  have inner (i : Interval) : (right.filterMap i.overlap?).any (·.contains c) =
      (i.contains c && right.any (·.contains c)) := by
    induction right with
    | nil => simp
    | cons j rest ih =>
      have step := Interval.contains_overlap? i j c
      rw [List.filterMap_cons, List.any_cons, Bool.and_or_distrib_left, ← step, ← ih]
      cases i.overlap? j <;> simp
  induction left with
  | nil => rfl
  | cons i rest ih =>
    simp only [contains, intersection, List.flatMap_cons, List.any_append, List.any_cons] at ih ⊢
    rw [ih, inner, Bool.and_or_distrib_right]

/-! ## 4. Letters of the other case -/

/-- The small letters of ASCII. -/
def smallLetters : Interval := ⟨0x61, 0x7a⟩

/-- The capital letters of ASCII. -/
def capitalLetters : Interval := ⟨0x41, 0x5a⟩

/-- How far a small letter stands behind its capital. -/
def caseDistance : Nat := 0x20

/-- The letters of ASCII that an interval holds, each in its other case. -/
def otherCase (i : Interval) : List Interval :=
  ((i.overlap? smallLetters).map fun j =>
      ⟨j.first - caseDistance, j.last - caseDistance⟩).toList
    ++ ((i.overlap? capitalLetters).map fun j =>
      ⟨j.first + caseDistance, j.last + caseDistance⟩).toList

/-- A set with both cases of the letters of ASCII that it holds. -/
def withOtherCase (set : CharSet) : CharSet :=
  (set.intervals.flatMap otherCase).foldl insert set

/-! ## 5. Sets with a name -/

/-- The ten digits. -/
def digit : CharSet := ⟨[⟨0x30, 0x39⟩]⟩

/-- The white space of ASCII. -/
def space : CharSet := ⟨[⟨0x09, 0x0d⟩, ⟨0x20, 0x20⟩]⟩

/-- The letters and digits of ASCII, and the underscore. -/
def word : CharSet := ⟨[⟨0x30, 0x39⟩, ⟨0x41, 0x5a⟩, ⟨0x5f, 0x5f⟩, ⟨0x61, 0x7a⟩]⟩

/-- The sets of ASCII characters that have a name. -/
def named? (name : List Char) : Option CharSet :=
  match String.ofList name with
  | "alnum" => some ⟨[⟨0x30, 0x39⟩, capitalLetters, smallLetters]⟩
  | "alpha" => some ⟨[capitalLetters, smallLetters]⟩
  | "ascii" => some ⟨[⟨0x00, 0x7f⟩]⟩
  | "blank" => some ⟨[⟨0x09, 0x09⟩, ⟨0x20, 0x20⟩]⟩
  | "cntrl" => some ⟨[⟨0x00, 0x1f⟩, ⟨0x7f, 0x7f⟩]⟩
  | "digit" => some digit
  | "graph" => some ⟨[⟨0x21, 0x7e⟩]⟩
  | "lower" => some ⟨[smallLetters]⟩
  | "print" => some ⟨[⟨0x20, 0x7e⟩]⟩
  | "punct" => some ⟨[⟨0x21, 0x2f⟩, ⟨0x3a, 0x40⟩, ⟨0x5b, 0x60⟩, ⟨0x7b, 0x7e⟩]⟩
  | "space" => some space
  | "upper" => some ⟨[capitalLetters]⟩
  | "word" => some word
  | "xdigit" => some ⟨[⟨0x30, 0x39⟩, ⟨0x41, 0x46⟩, ⟨0x61, 0x66⟩]⟩
  | _ => Option.none

end CharSet

end Disassembler8080.Pattern
