/-
# What a listing shows, and where its labels stand

The body of a listing shows the statements of a sweep up to the last address of memory, which it
never reaches: all of them, or all but the one that starts there.  A referenced address has its
label in place if a statement is shown there, and is defined behind the body otherwise, so the
labels of both kinds together are the referenced addresses, each once.

Main statements:

* `Disassembly.exists_shown`: the row that the body shows.
* `Disassembly.mem_labels_iff` and `Disassembly.nodup_labels`: the labels in place and the
  definitions share the referenced addresses between them.
-/
import Disassembler8080.Listing.Delivery
import Disassembler8080.Proofs.Contents
import Disassembler8080.Proofs.Lines

namespace Disassembler8080

open Tiling

namespace Disassembly

/-! ## 1. The statements that are shown -/

/-- A walk through a row shows all of it that starts below the limit. -/
theorem visitFrom_addressed (limit address : Nat) {statements : List Statement}
    (h : address + extent statements ≤ memorySize) :
    ∃ front rest, statements = front ++ rest ∧
      visitFrom limit address [] (addressed address statements) = addressed address front ∧
      (∀ entry ∈ addressed address front, entry.1.toNat < limit) ∧
      (rest = [] ∨ limit ≤ address + extent front) := by
  induction statements generalizing address with
  | nil => exact ⟨[], [], rfl, rfl, by simp [addressed], Or.inl rfl⟩
  | cons statement others ih =>
    have hplace : (UInt16.ofNat (address + extent [])).toNat = address + extent [] :=
      toNat_of_mem_addressed h
    rw [extent_nil, Nat.add_zero] at hplace
    by_cases hlimit : address < limit
    · rw [extent_cons, ← Nat.add_assoc] at h
      obtain ⟨front, rest, rfl, hvisit, hbelow, hend⟩ := ih _ h
      refine ⟨statement :: front, rest, rfl, ?_, ?_, ?_⟩
      · simp only [addressed, visitFrom, hplace, Nat.lt_irrefl, if_false, if_pos hlimit]
        rw [visitFrom_eq, hvisit]
        rfl
      · exact List.forall_mem_cons.mpr ⟨by rwa [hplace], hbelow⟩
      · rwa [extent_cons, ← Nat.add_assoc]
    · refine ⟨[], statement :: others, rfl, ?_, by simp [addressed], Or.inr (by simpa using hlimit)⟩
      simp only [addressed, visitFrom, hplace, Nat.lt_irrefl, if_false, if_neg hlimit,
        List.reverse_nil]

variable (blocks : List DataBlock) {statements : List Statement}

/-- **The body shows a front part of the row**: all of it, or what comes before the last address of
memory. -/
theorem exists_shown (h : extent statements ≤ memorySize) :
    ∃ front rest, statements = front ++ rest ∧
      (ofStatements blocks statements).shown = addressed 0 front ∧
      (∀ entry ∈ addressed 0 front, entry.1.toNat < memorySize - 1) ∧
      (rest = [] ∨ extent front = memorySize - 1) := by
  have hzero : 0 + extent statements ≤ memorySize := by omega
  obtain ⟨front, rest, hsplit, hvisit, hbelow, hend⟩ :=
    visitFrom_addressed (ofStatements blocks statements).bodyLimit 0 hzero
  have hlimit : (ofStatements blocks statements).bodyLimit =
      min (extent statements) (memorySize - 1) := rfl
  rw [hlimit] at hbelow hend
  refine ⟨front, rest, hsplit, ?_, ?_, ?_⟩
  · rw [shown, toList_ofStatements h, hvisit]
  · intro entry hentry
    have := hbelow entry hentry
    omega
  · rcases hend with hnil | hend
    · exact Or.inl hnil
    · cases rest with
      | nil => exact Or.inl rfl
      | cons statement others =>
        -- something is left, so the stop is behind the front, and the limit is not the stop
        have hpos := statement.size_pos
        rw [hsplit, extent_append, extent_cons] at hend h
        exact Or.inr (by omega)

/-- The body shows exactly the statements below the last address of memory. -/
theorem mem_shown_iff (h : extent statements ≤ memorySize) (entry : Address × Statement) :
    entry ∈ (ofStatements blocks statements).shown ↔
      entry ∈ addressed 0 statements ∧ entry.1.toNat < memorySize - 1 := by
  obtain ⟨front, rest, rfl, hshown, hbelow, hend⟩ := exists_shown blocks h
  rw [hshown, addressed_append, List.mem_append]
  constructor
  · intro hentry
    exact ⟨Or.inl hentry, hbelow entry hentry⟩
  · rintro ⟨hfront | hrest, hlast⟩
    · exact hfront
    · rcases hend with rfl | hend
      · exact absurd hrest (by simp [addressed])
      · have hroom : 0 + extent front + extent rest ≤ memorySize := by
          rwa [Nat.zero_add, ← extent_append]
        have hplace := (bounds_of_mem_addressed hroom hrest).1
        omega

theorem shown_isPrefix (h : extent statements ≤ memorySize) :
    (ofStatements blocks statements).shown <+: addressed 0 statements := by
  obtain ⟨front, rest, rfl, hshown, -, -⟩ := exists_shown blocks h
  rw [hshown, addressed_append]
  exact List.prefix_append _ _

theorem increasing_shown (h : extent statements ≤ memorySize) :
    Increasing (ofStatements blocks statements).shown := by
  have hzero : 0 + extent statements ≤ memorySize := by omega
  exact (increasing_addressed hzero).sublist (shown_isPrefix blocks h).sublist

/-! ## 2. Labels in place and definitions -/

variable (disassembly : Disassembly)

/-- Whether something refers to an address, so that a listing has to have a label for it. -/
def IsReferenced (address : Address) : Prop :=
  (disassembly.map.location address).referenced = true

/-- A label stands in place where a statement is shown at a referenced address. -/
theorem mem_placed_iff (address : Address) :
    address ∈ disassembly.placed ↔
      (∃ statement, (address, statement) ∈ disassembly.shown) ∧
        disassembly.IsReferenced address := by
  rw [placed, List.mem_filter, List.mem_map]
  constructor
  · rintro ⟨⟨⟨_, statement⟩, hmem, rfl⟩, hreferenced⟩
    exact ⟨⟨statement, hmem⟩, hreferenced⟩
  · rintro ⟨⟨statement, hmem⟩, hreferenced⟩
    exact ⟨⟨_, hmem, rfl⟩, hreferenced⟩

/-- Once the body is written, an address is labelled if it was so before or has a label in place. -/
theorem contains_labelledAfterBody (address : Address) :
    disassembly.labelledAfterBody.contains address =
      ((disassembly.map.location address).labelled || disassembly.placed.contains address) := by
  simp [labelledAfterBody, MemoryMap.location]

/-- The definitions are of the referenced addresses that were not labelled before and have no label
in place. -/
theorem mem_outside (address : Address) :
    address ∈ disassembly.outside ↔
      disassembly.IsReferenced address ∧ (disassembly.map.location address).labelled = false ∧
        address ∉ disassembly.placed := by
  have hreferences : address ∈ disassembly.map.references ↔ disassembly.IsReferenced address := by
    rw [MemoryMap.references, Std.ExtTreeSet.mem_toList, Std.ExtTreeSet.mem_iff_contains]
    rfl
  rw [outside, List.mem_filter, hreferences, contains_labelledAfterBody, Bool.not_eq_true',
    Bool.or_eq_false_iff, List.contains_eq_mem, decide_eq_false_iff_not]

/-- Before anything is labelled, the definitions are of the referenced addresses without a label in
place. -/
theorem mem_outside_iff (h : ∀ address, (disassembly.map.location address).labelled = false)
    (address : Address) :
    address ∈ disassembly.outside ↔
      disassembly.IsReferenced address ∧ address ∉ disassembly.placed := by
  rw [mem_outside, and_iff_right (h address)]

theorem increasing_placed (h : Increasing disassembly.shown) :
    disassembly.placed.Pairwise (· < ·) := by
  refine List.Pairwise.filter _ ?_
  rw [List.pairwise_map]
  exact h

theorem increasing_outside : disassembly.outside.Pairwise (· < ·) := by
  refine List.Pairwise.filter _ ?_
  exact Std.ExtTreeSet.ordered_toList.imp fun h => Std.compare_eq_lt.mp h

/-- The addresses that the listing has a label for, in place or defined. -/
def labels : List Address := disassembly.placed ++ disassembly.outside

variable {disassembly}

/-- **The labels are the referenced addresses.** -/
theorem mem_labels_iff (h : ∀ address, (disassembly.map.location address).labelled = false)
    (address : Address) :
    address ∈ disassembly.labels ↔ disassembly.IsReferenced address := by
  rw [labels, List.mem_append, mem_outside_iff disassembly h]
  constructor
  · rintro (hplaced | houtside)
    · exact ((mem_placed_iff disassembly address).mp hplaced).2
    · exact houtside.1
  · intro hreferenced
    by_cases hplaced : address ∈ disassembly.placed
    · exact Or.inl hplaced
    · exact Or.inr ⟨hreferenced, hplaced⟩

/-- **No address has two labels.** -/
theorem nodup_labels (h : ∀ address, (disassembly.map.location address).labelled = false)
    (hincreasing : Increasing disassembly.shown) : disassembly.labels.Nodup := by
  refine List.nodup_append.mpr ⟨(increasing_placed disassembly hincreasing).nodup,
    (increasing_outside disassembly).nodup, ?_⟩
  rintro address hplaced other houtside rfl
  exact ((mem_outside_iff disassembly h address).mp houtside).2 hplaced

/-! ## 3. Lines -/

variable (disassembly)

/-- The lines behind the body: the definitions between two empty lines, and the closing lines. -/
def behindBody : List Line :=
  .blank :: disassembly.outside.map .definition ++ [.blank, .finish, .blank]

theorem lines_eq : disassembly.lines = disassembly.body ++ disassembly.behindBody := by
  simp [lines, front, closing, behindBody]

/-- The lines of several shown statements. -/
def linesOfAll (entries : List (Address × Statement)) : List Line :=
  entries.flatMap fun entry => disassembly.linesOf entry.1 entry.2

@[simp] theorem linesOfAll_cons (entry : Address × Statement)
    (rest : List (Address × Statement)) :
    disassembly.linesOfAll (entry :: rest) =
      disassembly.linesOf entry.1 entry.2 ++ disassembly.linesOfAll rest := rfl

@[simp] theorem linesOfAll_append (first second : List (Address × Statement)) :
    disassembly.linesOfAll (first ++ second) =
      disassembly.linesOfAll first ++ disassembly.linesOfAll second :=
  List.flatMap_append

/-- The body is the lines of the shown statements. -/
theorem body_eq : disassembly.body = disassembly.linesOfAll disassembly.shown := rfl

variable {disassembly} in
/-- The lines of a listing are those before a shown statement, its own and the others. -/
theorem lines_eq_of_shown {address : Address} {statement : Statement}
    {before after : List (Address × Statement)}
    (h : disassembly.shown = before ++ (address, statement) :: after) :
    disassembly.lines = disassembly.linesOfAll before ++ disassembly.linesOf address statement ++
      (disassembly.linesOfAll after ++ disassembly.behindBody) := by
  rw [lines_eq, body_eq, h, linesOfAll_append, linesOfAll_cons]
  simp only [List.append_assoc]

theorem mem_linesOf_iff (address : Address) (statement : Statement) (line : Line) :
    line ∈ disassembly.linesOf address statement ↔
      (line = .label address ∧ disassembly.IsReferenced address) ∨ line = .statement statement := by
  unfold linesOf
  split
  · rename_i hreferenced
    simp [IsReferenced, MemoryMap.location, hreferenced]
  · rename_i hnot
    simp [IsReferenced, MemoryMap.location, hnot]

theorem filterMap_label?_body : disassembly.body.filterMap Line.label? = disassembly.placed := by
  rw [body_eq, placed]
  induction disassembly.shown with
  | nil => rfl
  | cons entry rest ih =>
    rw [linesOfAll_cons, List.filterMap_append, ih, List.map_cons, List.filter_cons, linesOf]
    split <;> rfl

theorem filterMap_definition?_body : disassembly.body.filterMap Line.definition? = [] := by
  rw [List.filterMap_eq_nil_iff]
  intro line hmem
  obtain ⟨entry, -, hline⟩ := List.mem_flatMap.mp hmem
  rcases (mem_linesOf_iff disassembly entry.1 entry.2 line).mp hline with ⟨rfl, -⟩ | rfl
  · rfl
  · rfl

theorem filterMap_label?_lines : disassembly.lines.filterMap Line.label? = disassembly.placed := by
  have hnone : ∀ line ∈ disassembly.behindBody, line.label? = none := by
    intro line hmem
    simp only [behindBody, List.cons_append, List.mem_cons, List.mem_append, List.mem_map,
      List.not_mem_nil, or_false] at hmem
    rcases hmem with rfl | ⟨_, -, rfl⟩ | rfl | rfl | rfl <;> rfl
  rw [lines_eq, List.filterMap_append, filterMap_label?_body, List.filterMap_eq_nil_iff.mpr hnone,
    List.append_nil]

theorem filterMap_definition?_lines :
    disassembly.lines.filterMap Line.definition? = disassembly.outside := by
  have hdefinitions : (disassembly.outside.map .definition).filterMap Line.definition? =
      disassembly.outside := by
    rw [List.filterMap_map]
    exact List.filterMap_some
  rw [lines_eq, behindBody, List.filterMap_append, filterMap_definition?_body,
    List.filterMap_append, List.filterMap_cons_none rfl, hdefinitions]
  exact List.append_nil _

theorem exists_of_statement_mem_lines {statement : Statement}
    (h : .statement statement ∈ disassembly.lines) :
    ∃ address, (address, statement) ∈ disassembly.shown := by
  rw [lines_eq, List.mem_append] at h
  rcases h with hbody | htail
  · obtain ⟨entry, hentry, hline⟩ := List.mem_flatMap.mp hbody
    rcases (mem_linesOf_iff disassembly entry.1 entry.2 _).mp hline with ⟨heq, -⟩ | heq
    · exact absurd heq (by simp)
    · cases heq
      exact ⟨entry.1, hentry⟩
  · exact absurd htail (by simp [behindBody])

theorem wellFormed_of_mem_lines (h : ∀ entry ∈ disassembly.shown, entry.2.WellFormed) :
    ∀ line ∈ disassembly.lines, line.WellFormed := by
  intro line hmem
  cases line with
  | statement content =>
    obtain ⟨address, hshown⟩ := exists_of_statement_mem_lines disassembly hmem
    exact h _ hshown
  | _ => trivial

/-- The texts of the lines, and the empty rest behind the last line feed. -/
def texts : List (List Char) := disassembly.lines.map Line.chars ++ [[]]

/-- **A listing is split into the lines that it was put together from.** -/
theorem splitOn_render (h : ∀ entry ∈ disassembly.shown, entry.2.WellFormed) :
    disassembly.render.1.toList.splitOn '\n' = disassembly.texts := by
  rw [render_fst, listing, Line.splitOn_join_written (wellFormed_of_mem_lines disassembly h), texts]

theorem wellFormed_of_mem_shown {forced : Address → Bool}
    (hfitting : Fitting forced 0 statements) (hroom : extent statements ≤ memorySize) :
    ∀ entry ∈ (ofStatements blocks statements).shown, entry.2.WellFormed :=
  fun entry hentry => (hfitting entry ((mem_shown_iff blocks hroom entry).mp hentry).1).1

end Disassembly

end Disassembler8080
