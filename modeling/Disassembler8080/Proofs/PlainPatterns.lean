/-
# Patterns without special characters

The log settings may end in a pattern, and mostly that is a word.  A text in which no character has
a meaning of its own is a pattern for itself: it is found in exactly the messages that contain it.

The text is read one character at a time, each as a letter, so its tree is a row of letters.  What
that means is a sequence of single characters, which takes a part of a message exactly if the part
is the text.  The room that a sequence takes grows with its length, and so a text that is too long
is refused.

Main statements:

* `Tree.ofText_plain`: the tree of a plain text.
* `Expression.ofText_plain`: a plain text is a pattern, and it occurs where the text stands.
* `LogSettings.shows_require_plain`: which events are shown with a plain text behind the slash.
-/
import Disassembler8080.LogFilter
import Disassembler8080.Proofs.Matching

namespace Disassembler8080

namespace Pattern

/-- Whether a character stands for itself in a pattern, outside of brackets and without a
backslash. -/
def isPlain (c : Char) : Bool :=
  !(['\\', '.', '^', '$', '(', ')', '|', '[', '?', '*', '+', '{'].contains c)

/-! ## 1. Reading -/

/-- The letter that a character is read as. -/
def letterAt (position : Nat) (c : Char) : Tree :=
  .atom (.letter { char := c, span := ⟨position, position + 1⟩ })

/-- The letters that a text is read as. -/
def lettersAt : Nat → List Char → List Tree
  | _, [] => []
  | position, c :: text => letterAt position c :: lettersAt (position + 1) text

namespace Reader

/-! Readers at a cursor for which white space has its meaning. -/

variable (c : Char) (rest : List Char) (position : Nat)

@[simp] theorem run_current? (cursor : Cursor) :
    current?.run cursor = pure (cursor.rest.head?, cursor) := rfl

@[simp] theorem run_here (cursor : Cursor) :
    here.run cursor = pure (cursor.position, cursor) := rfl

@[simp] theorem run_nextSpan (cursor : Cursor) :
    nextSpan.run cursor = pure (⟨cursor.position, cursor.position + 1⟩, cursor) := rfl

@[simp] theorem run_skipBlank :
    skipBlank.run { rest, position } = pure ((), { rest, position }) := rfl

@[simp] theorem run_discard_next :
    (discard next).run { rest := c :: rest, position } =
      pure ((), { rest, position := position + 1 }) := rfl

end Reader

namespace Outline

open Reader

variable {c : Char}

theorem plain_of_isPlain (h : isPlain c = true) (span : Span) :
    plain c span = .letter { char := c, span } := by
  unfold plain
  split <;> simp_all [isPlain]

theorem run_atom_of_isPlain (h : isPlain c = true) (rest : List Char) (position : Nat) :
    (atom c).run { rest := c :: rest, position } =
      pure (.letter { char := c, span := ⟨position, position + 1⟩ },
        { rest, position := position + 1 }) := by
  have hne : c ≠ '\\' := by
    rintro rfl
    exact absurd h (by decide)
  rw [atom, if_neg hne]
  simp [plain_of_isPlain h]

theorem run_read?_of_isPlain (h : isPlain c = true) (rest : List Char) (position : Nat) :
    Count.read?.run { rest := c :: rest, position } = pure (none, { rest := c :: rest, position }) := by
  have hsign : Count.ofSign? c = none := by
    unfold Count.ofSign?
    split <;> simp_all [isPlain]
  have hne : c ≠ '{' := by
    rintro rfl
    exact absurd h (by decide)
  simp [Count.read?, hne, hsign]

/-- A plain character is read as a letter. -/
theorem run_advance_of_isPlain (h : isPlain c = true) (progress : Progress)
    (rest : List Char) (position : Nat) :
    (advance progress).run { rest := c :: rest, position } =
      pure (some (progress.add (letterAt position c)), { rest, position := position + 1 }) := by
  have hatom := run_atom_of_isPlain h rest position
  have hcount := run_read?_of_isPlain h rest position
  simp only [isPlain, Bool.not_eq_true', List.contains_eq_mem, decide_eq_false_iff_not,
    List.mem_cons, not_or] at h
  simp [advance, hatom, hcount, h, letterAt]

theorem run_advance_nil (progress : Progress) (position : Nat) :
    (advance progress).run { rest := [], position } = pure (none, { rest := [], position }) := rfl

/-- A plain text is read as a row of letters. -/
theorem run_repeatedly_advance {text : List Char} (h : ∀ c ∈ text, isPlain c = true)
    (progress : Progress) (position : Nat) :
    (repeatedly advance (text.length + 1) progress).run { rest := text, position } =
      pure ((lettersAt position text).foldl Progress.add progress,
        { rest := [], position := position + text.length }) := by
  induction text generalizing progress position with
  | nil => simp [repeatedly, run_advance_nil, lettersAt]
  | cons c text ih =>
    obtain ⟨hc, hrest⟩ := List.forall_mem_cons.mp h
    rw [List.length_cons, repeatedly, StateT.run_bind, run_advance_of_isPlain hc, pure_bind]
    rw [ih hrest, lettersAt, List.foldl_cons, Nat.add_assoc, Nat.add_comm 1]

theorem foldl_add (parts : List Tree) (progress : Progress) :
    parts.foldl Progress.add progress =
      { progress with
        level.branch.parts := parts.reverse ++ progress.level.branch.parts } := by
  induction parts generalizing progress with
  | nil => rfl
  | cons part parts ih =>
    rw [List.foldl_cons, ih]
    simp [Progress.add, Level.add, Branch.add]

end Outline

/-- A row of parts as one tree, which is not wrapped if there is only one. -/
def rowOf (past : Nat) : List Tree → Tree
  | [] => .empty ⟨0, past⟩
  | [part] => part
  | parts => .sequence ⟨0, past⟩ parts

theorem Outline.toTree_reverse (past : Nat) (parts : List Tree) :
    (Level.mk 0 [] ⟨0, parts.reverse⟩).toTree past = rowOf past parts := by
  match parts with
  | [] => rfl
  | [part] => rfl
  | part :: next :: rest =>
    change (Branch.mk 0 (part :: next :: rest).reverse).toTree past = _
    rw [Branch.toTree]
    split
    · next hnone => simp at hnone
    · next hone => simpa using congrArg List.length hone
    · rw [List.reverse_reverse]
      rfl

theorem anyTooDeep?_lettersAt (room position : Nat) (text : List Char) :
    Tree.anyTooDeep? room (lettersAt position text) = none := by
  induction text generalizing position with
  | nil => simp [lettersAt, Tree.anyTooDeep?]
  | cons c text ih => simp [lettersAt, letterAt, Tree.anyTooDeep?, Tree.tooDeep?, ih]

theorem tooDeep?_rowOf_lettersAt (room past position : Nat) (text : List Char) :
    (rowOf past (lettersAt position text)).tooDeep? (room + 1) = none := by
  match text with
  | [] => simp [lettersAt, rowOf, Tree.tooDeep?]
  | [c] => simp [lettersAt, letterAt, rowOf, Tree.tooDeep?]
  | c :: d :: rest =>
    exact anyTooDeep?_lettersAt room position (c :: d :: rest)

theorem Outline.run_read_of_isPlain {text : List Char} (h : ∀ c ∈ text, isPlain c = true) :
    Outline.read.run { rest := text } =
      pure (rowOf text.length (lettersAt 0 text), { rest := [], position := text.length }) := by
  have hparts : (Reader.untilDone advance { level := Level.startingAt 0 }).run { rest := text } =
      _ := run_repeatedly_advance h _ 0
  have hdepth : (rowOf text.length (lettersAt 0 text)).tooDeep? nestingLimit = none :=
    tooDeep?_rowOf_lettersAt 249 text.length 0 text
  rw [Outline.read, StateT.run_bind, hparts, foldl_add, pure_bind]
  simp [Level.startingAt, toTree_reverse, hdepth]

/-- **The tree of a plain text** is a row of its letters. -/
theorem Tree.ofText_plain {text : List Char} (h : ∀ c ∈ text, isPlain c = true) :
    Tree.ofText text = .ok (rowOf text.length (lettersAt 0 text)) := by
  rw [Tree.ofText, Outline.run_read_of_isPlain h]
  rfl

/-! ## 2. Meaning -/

/-- The expression that is one character. -/
def single (c : Char) : Expression := .one ⟨[.single c]⟩

theorem meaning_letterAt (position : Nat) (c : Char) :
    (letterAt position c).meaning {} = pure (single c, {}) := by
  have hchar : Letter.char? {} { char := c, span := ⟨position, position + 1⟩ } = pure c := rfl
  simp [letterAt, Tree.meaning, Atom.meaning, Letter.meaning, hchar, single]

theorem meanings_lettersAt (position : Nat) (text : List Char) :
    Tree.meanings {} (lettersAt position text) = pure (text.map single, {}) := by
  induction text generalizing position with
  | nil => simp [lettersAt, Tree.meanings]
  | cons c text ih => simp [lettersAt, Tree.meanings, meaning_letterAt, ih]

theorem meaning_rowOf_lettersAt (past position : Nat) (text : List Char) :
    (rowOf past (lettersAt position text)).meaning {} =
      pure (.sequence (text.map single), {}) := by
  match text with
  | [] => simp [lettersAt, rowOf, Tree.meaning, Expression.sequence]
  | [c] => exact meaning_letterAt position c
  | c :: d :: rest =>
    have hmeanings := meanings_lettersAt position (c :: d :: rest)
    simp only [lettersAt] at hmeanings
    simp [lettersAt, rowOf, Tree.meaning, hmeanings]

/-- Single characters take a text exactly from its beginning to its end. -/
theorem takeInTurn_map_single_iff (text : List Char) (start stop : Spot) :
    Expression.TakeInTurn (text.map single) start stop ↔
      start.rest = text ++ stop.rest ∧ stop.previous = text.getLast?.or start.previous := by
  induction text generalizing start with
  | nil =>
    obtain ⟨previous, rest⟩ := start
    obtain ⟨previous', rest'⟩ := stop
    simp only [List.map_nil, Expression.TakeInTurn, Spot.mk.injEq, List.nil_append,
      List.getLast?_nil, Option.none_or]
    rw [and_comm, eq_comm (a := rest)]
  | cons c text ih =>
    have hset (d : Char) : CharSet.contains ⟨[.single c]⟩ d = true ↔ d = c := by
      simp [CharSet.contains, Interval.contains, Interval.single, ← Char.toNat_inj]
      omega
    constructor
    · rintro ⟨_, ⟨d, rest, hrest, hd, rfl⟩, htail⟩
      obtain rfl := (hset d).mp hd
      obtain ⟨rfl, hprevious⟩ := (ih _).mp htail
      exact ⟨hrest, hprevious.trans (Spot.getLast?_cons_or d text _).symm⟩
    · rintro ⟨hrest, hprevious⟩
      refine ⟨⟨some c, text ++ stop.rest⟩, ⟨c, _, hrest, (hset c).mpr rfl, rfl⟩, ?_⟩
      exact (ih _).mpr ⟨rfl, hprevious.trans (Spot.getLast?_cons_or c text _)⟩

/-- **A sequence of single characters occurs exactly where their text stands.** -/
theorem occursIn_sequence_map_single_iff (text message : List Char) :
    (Expression.sequence (text.map single)).occursIn message = true ↔ text <:+: message := by
  rw [Expression.occursIn_iff]
  simp only [Expression.takes_sequence, takeInTurn_map_single_iff]
  constructor
  · rintro ⟨front, part, behind, rfl, hpart, -⟩
    exact ⟨front, behind, by rw [List.append_assoc, List.append_assoc, hpart]⟩
  · rintro ⟨front, behind, rfl⟩
    refine ⟨front, text, behind, rfl, rfl, ?_⟩
    rw [List.getLast?_append]

/-! ## 3. Room -/

/-- Expressions of which none is empty are joined as they are. -/
theorem sequence_append_of_ne {parts : List Expression} {last : Expression}
    (h : ∀ part ∈ parts ++ [last], part ≠ .empty) :
    Expression.sequence (parts ++ [last]) = parts.foldr .both last := by
  have hfilter : (parts ++ [last]).filter (· ≠ .empty) = parts ++ [last] :=
    List.filter_eq_self.mpr fun part hmem => decide_eq_true (h part hmem)
  rw [Expression.sequence, hfilter]
  split
  · next hnone => simp at hnone
  · next first rest hparts => simp [← hparts]

theorem forks_single (direction : Direction) (c : Char) :
    ((single c).measure direction).1.forks = false := rfl

theorem bytes_single_le (direction : Direction) (c : Char) :
    ((single c).measure direction).1.bytes ≤ 4 * Storage.state := by
  change (if c.toNat = c.toNat then (Utf8.bytes c.toNat).length * Storage.state else _) ≤ _
  rw [if_pos rfl]
  refine Nat.mul_le_mul_right _ ?_
  unfold Utf8.bytes
  split
  · exact Nat.le_of_ble_eq_true rfl
  · split
    · exact Nat.le_of_ble_eq_true rfl
    · split <;> exact Nat.le_of_ble_eq_true rfl

/-- Where nothing forks, a sequence takes the room of its parts. -/
theorem measure_both {direction : Direction} {first second : Expression}
    (hfirst : (first.measure direction).1.forks = false)
    (hsecond : (second.measure direction).1.forks = false) :
    ((Expression.both first second).measure direction).1 =
      { bytes := (first.measure direction).1.bytes + (second.measure direction).1.bytes } := by
  cases direction <;>
    simp [Expression.measure, Expression.measure.alone, Storage.Room.followedBy,
      Storage.Room.joint, hfirst, hsecond, Nat.add_comm]

theorem measure_foldr_single (direction : Direction) (text : List Char) (last : Char) :
    let room := (((text.map single).foldr .both (single last)).measure direction).1
    room.forks = false ∧ room.bytes ≤ (text.length + 1) * (4 * Storage.state) := by
  induction text with
  | nil => exact ⟨forks_single direction last, by simpa using bytes_single_le direction last⟩
  | cons c text ih =>
    obtain ⟨hforks, hbytes⟩ := ih
    have hbytes' := bytes_single_le direction c
    rw [List.map_cons, List.foldr_cons, measure_both (forks_single direction c) hforks,
      List.length_cons, Nat.succ_mul (text.length + 1), Nat.add_comm]
    exact ⟨rfl, Nat.add_le_add hbytes hbytes'⟩

theorem needsScripts_foldr_single (text : List Char) (last : Char) :
    ((text.map single).foldr .both (single last)).needsScripts = false := by
  induction text with
  | nil => rfl
  | cons c text ih => simpa [Expression.needsScripts, single] using ih

/-- There is room for single characters if they are not too many. -/
theorem check_sequence_map_single {text : List Char} (h : text.length ≤ 80000) :
    (Expression.sequence (text.map single)).check = .ok (.sequence (text.map single)) := by
  rcases List.eq_nil_or_concat text with rfl | ⟨front, last, hconcat⟩
  · rfl
  · obtain rfl : text = front ++ [last] := hconcat.trans List.concat_eq_append
    have hsequence : Expression.sequence ((front ++ [last]).map single) =
        (front.map single).foldr .both (single last) := by
      rw [List.map_append]
      refine sequence_append_of_ne fun part hmem => ?_
      rcases List.mem_append.mp hmem with hfront | hlast
      · obtain ⟨c, -, rfl⟩ := List.mem_map.mp hfront
        exact Expression.noConfusion
      · rw [List.mem_singleton.mp hlast]
        exact Expression.noConfusion
    have hfits (direction : Direction) :
        ((front.map single).foldr .both (single last)).fits direction = true := by
      obtain ⟨hforks, hbytes⟩ := measure_foldr_single direction front last
      have hsurroundings : Expression.surroundings direction ≤ 208 := by
        cases direction <;> decide
      rw [List.length_append, List.length_singleton] at h
      rw [Storage.state] at hbytes
      simp only [Expression.fits, Storage.Room.joint, hforks, Storage.limit, decide_eq_true_eq,
        Bool.false_eq_true, if_false]
      omega
    rw [hsequence, Expression.check, hfits, needsScripts_foldr_single, hfits]
    rfl

/-- **A plain text is a pattern**, and it is found in exactly the messages that contain it. -/
theorem Expression.ofText_plain {text : List Char} (h : ∀ c ∈ text, isPlain c = true)
    (hlength : text.length ≤ 80000) :
    ∃ wanted, Expression.ofText text = .ok wanted ∧
      ∀ message, wanted.occursIn message = true ↔ text <:+: message := by
  refine ⟨.sequence (text.map single), ?_, occursIn_sequence_map_single_iff text⟩
  have htree : (Tree.ofText text).mapError (Refusal.faulty text) =
      pure (rowOf text.length (lettersAt 0 text)) := by
    rw [Tree.ofText_plain h]
    rfl
  have hmeaning : ((rowOf text.length (lettersAt 0 text)).meaning {}).mapError
      (Refusal.faulty text) = pure (.sequence (text.map single), {}) := by
    rw [meaning_rowOf_lettersAt]
    rfl
  rw [Expression.ofText, htree, pure_bind, hmeaning, pure_bind]
  exact check_sequence_map_single hlength

end Pattern

/-! ## 4. Settings -/

/-- **With a plain text behind the slash**, those of the events that the directives ask for are
shown whose message contains the text, and there is no warning. -/
theorem LogSettings.shows_require_plain {text : List Char}
    (h : ∀ c ∈ text, Pattern.isPlain c = true) (hlength : text.length ≤ 80000)
    (settings : LogSettings) :
    (settings.require text).warnings = settings.warnings ∧
      ∀ event, (settings.require text).filter.shows event = true ↔
        { settings.filter with required := none }.shows event = true ∧
          text <:+: event.message.toList := by
  obtain ⟨wanted, hwanted, hoccurs⟩ := Pattern.Expression.ofText_plain h hlength
  rw [LogSettings.require, hwanted]
  refine ⟨rfl, fun event => ?_⟩
  rw [LogFilter.shows, LogFilter.shows, Bool.and_eq_true, Bool.and_true, ← hoccurs]
  rfl

end Disassembler8080
