/-
# Where an expression matches

What an expression asks of a text can be said without walking over it.  An expression takes a part
of a text, from one spot to another: a sequence takes one part right behind the other, a choice what
one of the two takes, and a repetition as many parts in a row as its count allows.

The walk rests on two facts about an expression at a spot.  It can stay there exactly if it is
`emptyAt` the spot, and it can go on from there exactly as one of its `remainders` goes on behind
the next character.  Sequences and choices follow from their parts.  In a repetition some of the
parts may be empty.  If there is an empty part at the spot, as many of them as are asked for can be
put in front, so the count asks for nothing any more; if there is none, the first part goes on.

Main statements:

* `exists_inARow_iff`: how a repetition goes on.
* `Expression.emptyAt_iff`: what an expression can match without a character.
* `Expression.exists_remainders_iff`: what is left of an expression behind a character.
* `Expression.occursIn_iff`: an expression occurs in a text exactly if it takes a part of it.
* `Expression.takes_sequence`, `takes_choice` and `takes_times`: what is built from expressions
  takes what it should.
-/
import Disassembler8080.Pattern.Expression
import Mathlib.Data.Option.Basic

namespace Disassembler8080.Pattern

/-! ## 1. Spots in a text -/

/-- A spot in a text: the character in front of it, and the text behind it. -/
structure Spot where
  previous : Option Char
  rest : List Char

namespace Spot

/-- The characters around a spot. -/
def place (spot : Spot) : Place := ⟨spot.previous, spot.rest.head?⟩

/-- Whether a part of a text, which may be empty, lies between two spots. -/
def LeadsTo (start stop : Spot) : Prop :=
  ∃ part, start.rest = part ++ stop.rest ∧ stop.previous = part.getLast?.or start.previous

variable {start middle stop : Spot}

theorem leadsTo_self (spot : Spot) : spot.LeadsTo spot := ⟨[], rfl, rfl⟩

theorem LeadsTo.trans (h : start.LeadsTo middle) (h' : middle.LeadsTo stop) :
    start.LeadsTo stop := by
  obtain ⟨part, hrest, hprevious⟩ := h
  obtain ⟨part', hrest', hprevious'⟩ := h'
  refine ⟨part ++ part', by rw [hrest, hrest', List.append_assoc], ?_⟩
  rw [hprevious', hprevious, List.getLast?_append, Option.or_assoc]

theorem LeadsTo.length_le (h : start.LeadsTo stop) : stop.rest.length ≤ start.rest.length := by
  obtain ⟨part, hrest, -⟩ := h
  rw [hrest, List.length_append]
  exact Nat.le_add_left _ _

/-- Where no character lies between two spots, they are the same. -/
theorem LeadsTo.eq_of_length_le (h : start.LeadsTo stop)
    (hle : start.rest.length ≤ stop.rest.length) : stop = start := by
  obtain ⟨part, hrest, hprevious⟩ := h
  rw [hrest, List.length_append] at hle
  obtain rfl : part = [] := List.length_eq_zero_iff.mp (by omega)
  cases start
  cases stop
  simp_all

theorem LeadsTo.antisymm (h : start.LeadsTo stop) (h' : stop.LeadsTo start) : stop = start :=
  h.eq_of_length_le h'.length_le

/-- The character in front of a spot behind a part that is one character longer. -/
theorem getLast?_cons_or (c : Char) (part : List Char) (previous : Option Char) :
    (c :: part).getLast?.or previous = part.getLast?.or (some c) := by
  rw [List.getLast?_cons, Option.some_or]
  cases part.getLast? <;> rfl

theorem leadsTo_nil_iff {previous : Option Char} :
    (Spot.mk previous []).LeadsTo stop ↔ stop = ⟨previous, []⟩ := by
  refine ⟨fun h => h.eq_of_length_le (Nat.zero_le _), ?_⟩
  rintro rfl
  exact leadsTo_self _

theorem leadsTo_cons (previous : Option Char) (c : Char) (rest : List Char) :
    (Spot.mk previous (c :: rest)).LeadsTo ⟨some c, rest⟩ := ⟨[c], rfl, rfl⟩

theorem leadsTo_cons_iff {previous : Option Char} {c : Char} {rest : List Char} :
    (Spot.mk previous (c :: rest)).LeadsTo stop ↔
      stop = ⟨previous, c :: rest⟩ ∨ (Spot.mk (some c) rest).LeadsTo stop := by
  constructor
  · rintro ⟨part, hrest, hprevious⟩
    cases part with
    | nil =>
      left
      cases stop
      simp_all
    | cons d part =>
      right
      obtain ⟨rfl, hpart⟩ := List.cons.inj hrest
      exact ⟨part, hpart, hprevious.trans (getLast?_cons_or c part previous)⟩
  · rintro (rfl | h)
    · exact leadsTo_self _
    · exact (leadsTo_cons previous c rest).trans h

end Spot

/-! ## 2. What an expression takes -/

/-- Whether a relation leads from one spot to another in so many steps. -/
def InARow (takes : Spot → Spot → Prop) : Nat → Spot → Spot → Prop
  | 0, start, stop => stop = start
  | n + 1, start, stop => ∃ middle, takes start middle ∧ InARow takes n middle stop

/-- Whether a count allows a number of times. -/
def Count.Allows (count : Count) (n : Nat) : Prop :=
  count.least ≤ n ∧ ∀ more ∈ count.more, n ≤ count.least + more

/-- Whether an expression matches the part of a text between two spots. -/
def Expression.Takes : Expression → Spot → Spot → Prop
  | .empty, start, stop => stop = start
  | .one set, start, stop =>
    ∃ c rest, start.rest = c :: rest ∧ set.contains c = true ∧ stop = ⟨some c, rest⟩
  | .assertion condition, start, stop => stop = start ∧ condition.holds start.place = true
  | .both first second, start, stop => ∃ middle, first.Takes start middle ∧ second.Takes middle stop
  | .either left right, start, stop => left.Takes start stop ∨ right.Takes start stop
  | .repeated body count, start, stop => ∃ n, count.Allows n ∧ InARow body.Takes n start stop
  | .group body, start, stop => body.Takes start stop

section InARow

variable {takes : Spot → Spot → Prop} (hleads : ∀ start stop, takes start stop → start.LeadsTo stop)
  {n : Nat} {start stop : Spot}

include hleads

theorem leadsTo_of_inARow (h : InARow takes n start stop) : start.LeadsTo stop := by
  induction n generalizing start with
  | zero => exact h ▸ start.leadsTo_self
  | succ n ih =>
    obtain ⟨middle, htakes, hrest⟩ := h
    exact (hleads _ _ htakes).trans (ih hrest)

/-- Steps in a row that end where they begin all stay there. -/
theorem inARow_self_iff : InARow takes n start start ↔ n = 0 ∨ takes start start := by
  constructor
  · intro h
    cases n with
    | zero => exact .inl rfl
    | succ n =>
      obtain ⟨middle, htakes, hrest⟩ := h
      exact .inr ((hleads _ _ htakes).antisymm (leadsTo_of_inARow hleads hrest) ▸ htakes)
  · rintro (rfl | h)
    · rfl
    · induction n with
      | zero => rfl
      | succ n ih => exact ⟨start, h, ih⟩

end InARow

/-- Steps in a row that go on anywhere: some that stay, one that goes on, and the others. -/
theorem exists_step_of_inARow {takes : Spot → Spot → Prop} {n : Nat} {start stop : Spot}
    (h : InARow takes n start stop) (hne : stop ≠ start) :
    ∃ still others, n = still + (others + 1) ∧ (still = 0 ∨ takes start start) ∧
      ∃ middle, (takes start middle ∧ middle ≠ start) ∧ InARow takes others middle stop := by
  induction n with
  | zero => exact absurd h hne
  | succ n ih =>
    obtain ⟨middle, htakes, hrest⟩ := h
    by_cases hmiddle : middle = start
    · subst hmiddle
      obtain ⟨still, others, rfl, -, hstep⟩ := ih hrest
      exact ⟨still + 1, others, by omega, .inr htakes, hstep⟩
    · exact ⟨0, n, by omega, .inl rfl, middle, ⟨htakes, hmiddle⟩, hrest⟩

/-- Steps that stay can be put in front. -/
theorem inARow_add {takes : Spot → Spot → Prop} {start stop : Spot} {still n : Nat}
    (hstill : still = 0 ∨ takes start start) (h : InARow takes n start stop) :
    InARow takes (still + n) start stop := by
  induction still with
  | zero => rwa [Nat.zero_add]
  | succ still ih =>
    have hself := hstill.resolve_left (Nat.succ_ne_zero still)
    rw [Nat.succ_add]
    exact ⟨start, hself, ih (.inr hself)⟩

namespace Count

variable {count : Count} {n : Nat}

theorem exists_afterOne?_iff :
    (∃ others, count.afterOne? = some others ∧ others.Allows n) ↔ count.Allows (n + 1) := by
  obtain ⟨least, more⟩ := count
  cases least with
  | zero => rcases more with - | - | more <;> simp [afterOne?, Allows]
  | succ least =>
    simp only [afterOne?, Option.some.injEq, exists_eq_left', Allows, Nat.add_le_add_iff_right,
      Nat.add_right_comm least 1]

theorem allows_exactly_iff (k : Nat) : Allows ⟨k, some 0⟩ n ↔ n = k := by
  simp only [Allows, Option.mem_some_iff, forall_eq', Nat.add_zero]
  exact (Nat.le_antisymm_iff.trans and_comm).symm

/-- The count that asks for nothing allows what can be made up for. -/
theorem allows_fromNone_iff : count.fromNone.Allows n ↔ ∃ still, count.Allows (still + n) := by
  obtain ⟨least, more⟩ := count
  simp only [fromNone, Allows, Option.forall_mem_map, Nat.zero_le, true_and, Nat.zero_add]
  constructor
  · intro h
    exact ⟨least - n, by omega, fun more hmore => by have := h more hmore; omega⟩
  · rintro ⟨still, -, h⟩ more hmore
    have := h more hmore
    omega

end Count

/-- **How a repetition goes on.**  One part goes on, and the others follow as often as is left.  If
there is a part that stays, none of the others is needed any more: what a count asks for can be made
up of parts that stay, in front of the one that goes on. -/
theorem exists_inARow_iff {takes : Spot → Spot → Prop}
    (hleads : ∀ start stop, takes start stop → start.LeadsTo stop) {start stop : Spot}
    {stays : Bool} (hstays : stays = true ↔ takes start start) (count : Count) :
    (∃ n, count.Allows n ∧ InARow takes n start stop) ∧ stop ≠ start ↔
      ∃ n, (if stays then count.fromNone else count).Allows (n + 1) ∧
        ∃ middle, (takes start middle ∧ middle ≠ start) ∧ InARow takes n middle stop := by
  constructor
  · rintro ⟨⟨n, hallows, hrow⟩, hne⟩
    obtain ⟨still, others, rfl, hstill, hstep⟩ := exists_step_of_inARow hrow hne
    refine ⟨others, ?_, hstep⟩
    split
    · exact Count.allows_fromNone_iff.mpr ⟨still, hallows⟩
    · next hmoves =>
      obtain rfl := hstill.resolve_right (mt hstays.mpr hmoves)
      rwa [Nat.zero_add] at hallows
  · rintro ⟨n, hallows, middle, ⟨htakes, hmiddle⟩, hrow⟩
    refine ⟨?_, ?_⟩
    · split at hallows
      · next hstill =>
        obtain ⟨still, hallows⟩ := Count.allows_fromNone_iff.mp hallows
        have hrow' : InARow takes (n + 1) start stop := ⟨middle, htakes, hrow⟩
        exact ⟨still + (n + 1), hallows, inARow_add (.inr (hstays.mp hstill)) hrow'⟩
      · exact ⟨n + 1, hallows, middle, htakes, hrow⟩
    · rintro rfl
      exact hmiddle ((hleads _ _ htakes).antisymm (leadsTo_of_inARow hleads hrow))

namespace Expression

variable {start middle stop : Spot}

theorem Takes.leadsTo {expression : Expression} (h : expression.Takes start stop) :
    start.LeadsTo stop := by
  induction expression generalizing start stop with
  | empty => exact h ▸ start.leadsTo_self
  | one set =>
    obtain ⟨c, rest, hrest, -, rfl⟩ := h
    exact ⟨[c], hrest, rfl⟩
  | assertion condition => exact h.1 ▸ start.leadsTo_self
  | both first second ihfirst ihsecond =>
    obtain ⟨middle, hfirst, hsecond⟩ := h
    exact (ihfirst hfirst).trans (ihsecond hsecond)
  | either left right ihleft ihright => exact h.elim ihleft ihright
  | repeated body count ih =>
    obtain ⟨n, -, hrow⟩ := h
    exact leadsTo_of_inARow (fun _ _ => ih) hrow
  | group body ih => exact ih h

/-! ## 3. Staying and going on -/

/-- **An expression matches without a character exactly where it can stay.** -/
theorem emptyAt_iff (expression : Expression) (spot : Spot) :
    expression.emptyAt spot.place = true ↔ expression.Takes spot spot := by
  induction expression with
  | empty => simp [emptyAt, Takes]
  | one set =>
    simp only [emptyAt, Bool.false_eq_true, Takes, false_iff]
    rintro ⟨c, rest, hrest, -, heq⟩
    have hlength := congrArg List.length hrest
    rw [congrArg Spot.rest heq] at hlength
    simp at hlength
  | assertion condition => simp [emptyAt, Takes]
  | both first second ihfirst ihsecond =>
    rw [emptyAt, Bool.and_eq_true, ihfirst, ihsecond]
    refine ⟨fun h => ⟨spot, h⟩, ?_⟩
    rintro ⟨middle, hfirst, hsecond⟩
    obtain rfl := hfirst.leadsTo.antisymm hsecond.leadsTo
    exact ⟨hfirst, hsecond⟩
  | either left right ihleft ihright => rw [emptyAt, Bool.or_eq_true, ihleft, ihright, Takes]
  | repeated body count ih =>
    rw [emptyAt, Bool.or_eq_true, beq_iff_eq, ih]
    simp only [Takes, inARow_self_iff fun _ _ => Takes.leadsTo]
    constructor
    · rintro (hleast | hstays)
      · exact ⟨0, ⟨by omega, by simp⟩, .inl rfl⟩
      · exact ⟨count.least, ⟨by omega, by simp⟩, .inr hstays⟩
    · rintro ⟨n, ⟨hleast, -⟩, rfl | hstays⟩
      · exact .inl (Nat.le_zero.mp hleast)
      · exact .inr hstays
  | group body ih => rw [emptyAt, ih, Takes]

theorem takes_before (first second : Expression) :
    (first.before second).Takes start stop ↔ (Expression.both first second).Takes start stop := by
  unfold before
  split
  · next hempty => simp [hempty, Takes]
  · rfl

/-- What goes on with one of some expressions and then with another one. -/
theorem exists_takes_before (expressions : List Expression) (second : Expression) :
    (∃ expression ∈ expressions.map (·.before second), expression.Takes start stop) ↔
      ∃ middle, (∃ expression ∈ expressions, expression.Takes start middle) ∧
        second.Takes middle stop := by
  simp only [List.mem_map, exists_exists_and_eq_and, takes_before, Takes]
  constructor
  · rintro ⟨first, hmem, middle, hfirst, hsecond⟩
    exact ⟨middle, ⟨first, hmem, hfirst⟩, hsecond⟩
  · rintro ⟨middle, ⟨first, hmem, hfirst⟩, hsecond⟩
    exact ⟨first, hmem, middle, hfirst, hsecond⟩

/-- **An expression goes on exactly as its remainders do behind the next character.** -/
theorem exists_remainders_iff (expression : Expression) (previous : Option Char) (c : Char)
    (rest : List Char) (stop : Spot) :
    (∃ remainder ∈ expression.remainders previous c, remainder.Takes ⟨some c, rest⟩ stop) ↔
      expression.Takes ⟨previous, c :: rest⟩ stop ∧ stop ≠ ⟨previous, c :: rest⟩ := by
  -- the place is that of the spot
  have hempty (expression : Expression) : expression.emptyAt ⟨previous, some c⟩ = true ↔
      expression.Takes ⟨previous, c :: rest⟩ ⟨previous, c :: rest⟩ :=
    expression.emptyAt_iff ⟨previous, c :: rest⟩
  induction expression generalizing stop with
  | empty => simp [remainders, Takes]
  | one set =>
    constructor
    · rintro ⟨remainder, hmem, htakes⟩
      rw [remainders] at hmem
      split at hmem
      · next hset =>
        obtain rfl := List.mem_singleton.mp hmem
        obtain rfl : stop = ⟨some c, rest⟩ := htakes
        exact ⟨⟨c, rest, rfl, hset, rfl⟩, by simp⟩
      · simp at hmem
    · rintro ⟨⟨d, behind, hrest, hset, rfl⟩, -⟩
      obtain ⟨rfl, rfl⟩ := List.cons.inj hrest
      exact ⟨.empty, by simp [remainders, hset], rfl⟩
  | assertion condition => simp +contextual [remainders, Takes]
  | both first second ihfirst ihsecond =>
    simp only [remainders, List.mem_append, or_and_right, exists_or, exists_takes_before, ihfirst]
    constructor
    · rintro (⟨middle, ⟨hfirst, hne⟩, hsecond⟩ | hskip)
      · refine ⟨⟨middle, hfirst, hsecond⟩, ?_⟩
        rintro rfl
        exact hne (hfirst.leadsTo.antisymm hsecond.leadsTo)
      · split at hskip
        · next hstays =>
          obtain ⟨hsecond, hne⟩ := (ihsecond stop).mp hskip
          exact ⟨⟨_, (hempty first).mp hstays, hsecond⟩, hne⟩
        · simp at hskip
    · rintro ⟨⟨middle, hfirst, hsecond⟩, hne⟩
      by_cases hmiddle : middle = ⟨previous, c :: rest⟩
      · subst hmiddle
        right
        rw [if_pos ((hempty first).mpr hfirst)]
        exact (ihsecond stop).mpr ⟨hsecond, hne⟩
      · exact .inl ⟨middle, ⟨hfirst, hmiddle⟩, hsecond⟩
  | either left right ihleft ihright =>
    simp only [remainders, List.mem_append, or_and_right, exists_or, ihleft, ihright, Takes]
  | repeated body count ih =>
    simp only [Takes, exists_inARow_iff (fun _ _ => Takes.leadsTo) (hempty body), remainders,
      ← Count.exists_afterOne?_iff]
    split
    · next hnone => simp [hnone]
    · next others hothers =>
      simp only [exists_takes_before, ih, hothers, Takes, Option.some.injEq, exists_eq_left']
      constructor
      · rintro ⟨middle, hstep, n, hallows, hrow⟩
        exact ⟨n, hallows, middle, hstep, hrow⟩
      · rintro ⟨n, hallows, middle, hstep, hrow⟩
        exact ⟨middle, hstep, n, hallows, hrow⟩
  | group body ih => simpa only [remainders, Takes] using ih stop

/-! ## 4. Walking over a text -/

/-- Whether an expression matches any part of a text that begins at a spot. -/
def MatchesAt (expression : Expression) (spot : Spot) : Prop :=
  ∃ stop, expression.Takes spot stop

theorem matchesAt_nil_iff (expression : Expression) (previous : Option Char) :
    expression.MatchesAt ⟨previous, []⟩ ↔ expression.emptyAt ⟨previous, none⟩ = true := by
  refine Iff.trans ?_ (emptyAt_iff expression ⟨previous, []⟩).symm
  refine ⟨?_, fun h => ⟨_, h⟩⟩
  rintro ⟨stop, htakes⟩
  rwa [Spot.leadsTo_nil_iff.mp htakes.leadsTo] at htakes

theorem matchesAt_cons_iff (expression : Expression) (previous : Option Char) (c : Char)
    (rest : List Char) :
    expression.MatchesAt ⟨previous, c :: rest⟩ ↔
      expression.emptyAt ⟨previous, some c⟩ = true ∨
        ∃ remainder ∈ expression.remainders previous c, remainder.MatchesAt ⟨some c, rest⟩ := by
  have hempty : expression.emptyAt ⟨previous, some c⟩ = true ↔ _ :=
    emptyAt_iff expression ⟨previous, c :: rest⟩
  rw [hempty]
  constructor
  · rintro ⟨stop, htakes⟩
    by_cases hstop : stop = ⟨previous, c :: rest⟩
    · exact .inl (hstop ▸ htakes)
    · obtain ⟨remainder, hmem, htakes⟩ :=
        (exists_remainders_iff expression previous c rest stop).mpr ⟨htakes, hstop⟩
      exact .inr ⟨remainder, hmem, stop, htakes⟩
  · rintro (hstays | ⟨remainder, hmem, stop, htakes⟩)
    · exact ⟨_, hstays⟩
    · exact ⟨stop, ((exists_remainders_iff expression previous c rest stop).mp
        ⟨remainder, hmem, htakes⟩).1⟩

/-- A walk finds what is under way at its spot, and what is wanted there or further on. -/
theorem occursFrom_iff (wanted : Expression) (previous : Option Char) (underWay : List Expression)
    (text : List Char) :
    wanted.occursFrom previous underWay text = true ↔
      (∃ expression ∈ underWay, expression.MatchesAt ⟨previous, text⟩) ∨
        ∃ spot, Spot.LeadsTo ⟨previous, text⟩ spot ∧ wanted.MatchesAt spot := by
  induction text generalizing previous underWay with
  | nil =>
    simp only [occursFrom, List.any_eq_true, List.mem_cons, Spot.leadsTo_nil_iff, exists_eq_left,
      matchesAt_nil_iff, exists_eq_or_imp]
    exact or_comm
  | cons c text ih =>
    have hbehind : (∃ remainder ∈
          ((wanted :: underWay).flatMap (·.remainders previous c)).eraseDups,
        remainder.MatchesAt ⟨some c, text⟩) ↔
        ∃ expression ∈ wanted :: underWay, ∃ remainder ∈ expression.remainders previous c,
          remainder.MatchesAt ⟨some c, text⟩ := by
      simp only [List.mem_eraseDups, List.mem_flatMap]
      constructor
      · rintro ⟨remainder, ⟨expression, hmem, hremainder⟩, hmatches⟩
        exact ⟨expression, hmem, remainder, hremainder, hmatches⟩
      · rintro ⟨expression, hmem, remainder, hremainder, hmatches⟩
        exact ⟨remainder, ⟨expression, hmem, hremainder⟩, hmatches⟩
    have hhere : (∃ expression ∈ wanted :: underWay, expression.MatchesAt ⟨previous, c :: text⟩) ↔
        (wanted :: underWay).any (·.emptyAt ⟨previous, some c⟩) = true ∨
          ∃ expression ∈ wanted :: underWay, ∃ remainder ∈ expression.remainders previous c,
            remainder.MatchesAt ⟨some c, text⟩ := by
      simp only [matchesAt_cons_iff, and_or_left, exists_or, List.any_eq_true]
    rw [occursFrom, Bool.or_eq_true, ih, hbehind, ← or_assoc, ← hhere]
    simp only [List.mem_cons, Spot.leadsTo_cons_iff, or_and_right, exists_or, exists_eq_left]
    exact or_assoc.trans or_left_comm

/-- **An expression occurs in a text exactly if it takes a part of it.** -/
theorem occursIn_iff (wanted : Expression) (text : List Char) :
    wanted.occursIn text = true ↔
      ∃ front part behind, text = front ++ part ++ behind ∧
        wanted.Takes ⟨front.getLast?, part ++ behind⟩ ⟨(front ++ part).getLast?, behind⟩ := by
  rw [occursIn, occursFrom_iff]
  simp only [List.not_mem_nil, false_and, exists_false, false_or]
  constructor
  · rintro ⟨⟨previous, rest⟩, ⟨front, htext, hprevious⟩, ⟨last, behind⟩, htakes⟩
    obtain ⟨part, hrest, hlast⟩ := htakes.leadsTo
    rw [Option.or_none] at hprevious
    simp only at htext hprevious hrest hlast
    subst hprevious hrest hlast
    refine ⟨front, part, behind, by rw [htext, List.append_assoc], ?_⟩
    rwa [List.getLast?_append]
  · rintro ⟨front, part, behind, rfl, htakes⟩
    refine ⟨_, ⟨front, ?_, ?_⟩, _, htakes⟩
    · rw [List.append_assoc]
    · rw [Option.or_none]

/-! ## 5. What is built from expressions -/

/-- Whether expressions match parts of a text one behind the other. -/
def TakeInTurn : List Expression → Spot → Spot → Prop
  | [], start, stop => stop = start
  | expression :: others, start, stop =>
    ∃ middle, expression.Takes start middle ∧ TakeInTurn others middle stop

theorem takeInTurn_filter (parts : List Expression) :
    TakeInTurn (parts.filter (· ≠ .empty)) start stop ↔ TakeInTurn parts start stop := by
  induction parts generalizing start with
  | nil => rfl
  | cons part parts ih =>
    by_cases hpart : part = .empty
    · rw [List.filter_cons_of_neg (by simp [hpart]), ih]
      simp [TakeInTurn, hpart, Takes]
    · rw [List.filter_cons_of_pos (by simp [hpart])]
      simp only [TakeInTurn, ih]

/-- Expressions joined from the last one on match what they match in turn. -/
theorem takes_foldr_both (parts : List Expression) (last : Expression) :
    (parts.foldr .both last).Takes start stop ↔ TakeInTurn (parts ++ [last]) start stop := by
  induction parts generalizing start with
  | nil => simp [TakeInTurn]
  | cons part parts ih => simp only [List.foldr_cons, List.cons_append, Takes, TakeInTurn, ih]

/-- **A sequence matches what its parts match in turn.** -/
theorem takes_sequence (parts : List Expression) :
    (sequence parts).Takes start stop ↔ TakeInTurn parts start stop := by
  rw [← takeInTurn_filter, sequence]
  split
  · next hnone => rw [hnone, Takes, TakeInTurn]
  · next part others hparts =>
    rw [takes_foldr_both, List.dropLast_concat_getLast, hparts]

theorem takes_foldr_either (parts : List Expression) (last : Expression) :
    (parts.foldr .either last).Takes start stop ↔
      ∃ part ∈ parts ++ [last], part.Takes start stop := by
  induction parts with
  | nil => simp
  | cons part parts ih => simp [Takes, ih]

theorem eq_map_of_mapM_set? {parts : List Expression} {sets : List CharSet}
    (h : parts.mapM set? = some sets) : parts = sets.map .one := by
  induction parts generalizing sets with
  | nil =>
    cases h
    rfl
  | cons part parts ih =>
    rw [List.mapM_cons] at h
    obtain ⟨set, hset, h⟩ := Option.bind_eq_some_iff.mp h
    obtain ⟨rest, hrest, h⟩ := Option.bind_eq_some_iff.mp h
    cases h
    obtain rfl : part = .one set := by
      cases part <;> simp_all [set?]
    rw [ih hrest, List.map_cons]

/-- **A choice matches what one of its parts matches**, also where the parts are single characters
and it has become one set. -/
theorem takes_choice (first : Expression) (others : List Expression) :
    (choice first others).Takes start stop ↔
      ∃ part ∈ first :: others, part.Takes start stop := by
  unfold choice
  split
  · next sets hsets =>
    simp only [eq_map_of_mapM_set? hsets, List.mem_map, exists_exists_and_eq_and, Takes,
      CharSet.contains_foldl_union, CharSet.contains_none, Bool.false_or, List.any_eq_true]
    constructor
    · rintro ⟨c, rest, hrest, ⟨set, hmem, hset⟩, hstop⟩
      exact ⟨set, hmem, c, rest, hrest, hset, hstop⟩
    · rintro ⟨set, hmem, c, rest, hrest, hset, hstop⟩
      exact ⟨c, rest, hrest, ⟨set, hmem, hset⟩, hstop⟩
  · rw [takes_foldr_either, List.dropLast_concat_getLast]

/-- What can match nothing but the text without characters stays where it is. -/
theorem eq_of_isWidthless {expression : Expression} (h : expression.isWidthless = true)
    (htakes : expression.Takes start stop) : stop = start := by
  induction expression generalizing start stop with
  | empty => exact htakes
  | one set => simp [isWidthless] at h
  | assertion condition => exact htakes.1
  | both first second ihfirst ihsecond =>
    rw [isWidthless, Bool.and_eq_true] at h
    obtain ⟨middle, hfirst, hsecond⟩ := htakes
    rw [ihsecond h.2 hsecond, ihfirst h.1 hfirst]
  | either left right ihleft ihright =>
    rw [isWidthless, Bool.and_eq_true] at h
    exact htakes.elim (ihleft h.1) (ihright h.2)
  | repeated body count ih =>
    obtain ⟨n, -, hrow⟩ := htakes
    induction n generalizing start with
    | zero => exact hrow
    | succ n ihn =>
      obtain ⟨middle, hbody, hrow⟩ := hrow
      rw [ihn hrow, ih h hbody]
  | group body ih => exact ih h htakes

theorem takes_iff_of_isWidthless {expression : Expression} (h : expression.isWidthless = true) :
    expression.Takes start stop ↔ stop = start ∧ expression.emptyAt start.place = true := by
  rw [emptyAt_iff]
  constructor
  · intro htakes
    obtain rfl := eq_of_isWidthless h htakes
    exact ⟨rfl, htakes⟩
  · rintro ⟨rfl, htakes⟩
    exact htakes

/-- Of what cannot go on, one time is as good as many. -/
theorem takes_repeated_atMostOnce {body : Expression} (h : body.isWidthless = true)
    (count : Count) :
    (repeated body count.atMostOnce).Takes start stop ↔ (repeated body count).Takes start stop := by
  have hrepeated (count : Count) : (repeated body count).isWidthless = true := h
  have hleast : (count.atMostOnce.least == 0) = (count.least == 0) := by
    unfold Count.atMostOnce
    split <;> simp [Count.exactly] <;> omega
  rw [takes_iff_of_isWidthless (hrepeated _), takes_iff_of_isWidthless (hrepeated _), emptyAt,
    emptyAt, hleast]

/-- **An expression so many times is its repetition**, also where one time stands for all. -/
theorem takes_times (body : Expression) (count : Count) :
    (body.times count).Takes start stop ↔ (repeated body count).Takes start stop := by
  have hcount : (repeated body (if body.isWidthless then count.atMostOnce else count)).Takes
      start stop ↔ (repeated body count).Takes start stop := by
    split
    · next h => exact takes_repeated_atMostOnce h count
    · rfl
  rw [← hcount, times]
  split
  · next hnever => simp [hnever, Takes, Count.allows_exactly_iff 0, InARow]
  · next honce => simp [honce, Takes, Count.allows_exactly_iff 1, InARow]
  · rfl

end Expression

end Disassembler8080.Pattern
