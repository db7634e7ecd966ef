/-
# Listings assemble to the program

An assembler that reads the listing of a sweep finds the program in it again: every line of the body
and every definition can be read, no name is bound twice, every name that an operand uses is bound,
and the bytes are those that were disassembled.  Only a statement at the last address of memory is
missing, which the body does not reach.

The induction over the body relates the count of the assembler to the addresses of the sweep: the
count is the address of the next statement.  So a label in place binds its name to its own address,
just as a definition does, and both passes over the names are one run over all labels of the
listing.

Main statement: `assemble_render`, for every sweep that succeeds.
-/
import Disassembler8080.Proofs.Placement
import Disassembler8080.Proofs.RoundTrip

namespace Disassembler8080

open Tiling Assembler

/-! ## 1. Reading the body -/

namespace Assembler

/-- What the lines of one shown statement are read as. -/
def itemsOf (disassembly : Disassembly) (address : Address) (statement : Statement) : List Item :=
  if disassembly.map.referenced.contains address then
    [.label address.label, .ofStatement statement]
  else [.ofStatement statement]

/-- What the lines of several shown statements are read as. -/
def itemsOfAll (disassembly : Disassembly) (entries : List (Address × Statement)) : List Item :=
  entries.flatMap fun entry => itemsOf disassembly entry.1 entry.2

/-- **The lines of well-formed statements are read** as those statements and their labels. -/
theorem mapM_readItem (disassembly : Disassembly) {entries : List (Address × Statement)}
    (h : ∀ entry ∈ entries, entry.2.WellFormed) :
    ((disassembly.linesOfAll entries).map Line.chars).mapM readItem =
      .ok (itemsOfAll disassembly entries) := by
  induction entries with
  | nil => rfl
  | cons entry rest ih =>
    obtain ⟨hentry, hrest⟩ := List.forall_mem_cons.mp h
    have hstatement : readItem (Line.statement entry.2).chars = .ok (.ofStatement entry.2) :=
      readItem_statement hentry
    have hlabel : readItem (Line.label entry.1).chars = .ok (.label entry.1.label) :=
      readItem_label entry.1
    have hlines : ((disassembly.linesOf entry.1 entry.2).map Line.chars).mapM readItem =
        .ok (itemsOf disassembly entry.1 entry.2) := by
      unfold Disassembly.linesOf itemsOf
      split
      · simp only [List.map_cons, List.map_nil, List.mapM_cons, List.mapM_nil, hlabel, hstatement]
        rfl
      · simp only [List.map_cons, List.map_nil, List.mapM_cons, List.mapM_nil, hstatement]
        rfl
    rw [Disassembly.linesOfAll_cons, List.map_append, List.mapM_append, hlines, ih hrest]
    rfl

theorem mapM_readDefinition (addresses : List Address) :
    (addresses.map fun address => (Line.definition address).chars).mapM readDefinition =
      .ok (addresses.map fun address => (address.label, address)) := by
  induction addresses with
  | nil => rfl
  | cons address rest ih =>
    have hread : readDefinition (Line.definition address).chars = .ok (address.label, address) :=
      readDefinition_definition address
    rw [List.map_cons, List.mapM_cons, hread, ih]
    rfl

/-! ## 2. Binding names -/

/-- Names that are bound to the addresses whose labels they are. -/
def Binds (names : Names) (addresses : List Address) : Prop :=
  ∀ address : Address, names[address.label]? = if address ∈ addresses then some address else none

theorem Binds.bind {names : Names} {bound : List Address} (h : Binds names bound)
    {address : Address} (hnew : address ∉ bound) :
    ∃ later, Assembler.bind names address.label address = .ok later ∧
      Binds later (bound ++ [address]) := by
  have hfree : names.contains address.label = false := by
    rw [Std.ExtTreeMap.contains_eq_isSome_getElem?, h address, if_neg hnew]
    rfl
  refine ⟨names.insert address.label address, by rw [Assembler.bind, hfree]; rfl, ?_⟩
  intro other
  rw [Std.ExtTreeMap.getElem?_insert, h other]
  by_cases heq : address = other
  · rw [heq, if_pos (Std.ReflCmp.compare_self), if_pos (by simp)]
  · have hne : compare address.label other.label ≠ .eq := fun hcompare =>
      heq (Address.label_injective (Std.LawfulEqCmp.eq_of_compare hcompare))
    have hmem : other ∈ bound ++ [address] ↔ other ∈ bound := by
      simp [Ne.symm heq]
    rw [if_neg hne]
    simp only [hmem]

/-- **The labels of different addresses can all be bound.** -/
theorem Binds.bindDefinitions {names : Names} {bound addresses : List Address}
    (h : Binds names bound) (hnodup : (bound ++ addresses).Nodup) :
    ∃ later, bindDefinitions names (addresses.map fun address => (address.label, address)) =
        .ok later ∧ Binds later (bound ++ addresses) := by
  induction addresses generalizing names bound with
  | nil => exact ⟨names, rfl, by rwa [List.append_nil]⟩
  | cons address rest ih =>
    have hnew : address ∉ bound := by
      intro hmem
      exact (List.nodup_append.mp hnodup).2.2 address hmem address List.mem_cons_self rfl
    rw [List.append_cons] at hnodup ⊢
    obtain ⟨middle, hbind, hmiddle⟩ := h.bind hnew
    obtain ⟨later, hrest, hlater⟩ := ih hmiddle hnodup
    refine ⟨later, ?_, hlater⟩
    rw [List.map_cons, Assembler.bindDefinitions, List.foldlM_cons]
    simp only [hbind]
    exact hrest

theorem binds_nil : Binds ∅ [] := by
  intro address
  simp

/-- A statement moves the count on by its size. -/
theorem bindLabels_ofStatement (names : Names) (count : Nat) (statement : Statement)
    (rest : List Item) :
    bindLabels names count (.ofStatement statement :: rest) =
      bindLabels names (count + statement.size) rest := by
  rw [← Item.size_ofStatement]
  cases statement <;> rfl

/-- **The labels of the body are bound as definitions are**: the count is the address of the next
statement, so that a label stands for its own address. -/
theorem bindLabels_itemsOfAll (disassembly : Disassembly) (names : Names) (address : Nat)
    (statements : List Statement) :
    bindLabels names address (itemsOfAll disassembly (addressed address statements)) =
      bindDefinitions names
        ((((addressed address statements).map Prod.fst).filter
          disassembly.map.referenced.contains).map fun place => (place.label, place)) := by
  induction statements generalizing names address with
  | nil => rfl
  | cons statement rest ih =>
    rw [addressed, itemsOfAll, List.flatMap_cons, ← itemsOfAll, List.map_cons, List.filter_cons,
      itemsOf]
    split
    · rw [List.map_cons, bindDefinitions, List.foldlM_cons]
      simp only [List.cons_append, List.nil_append, bindLabels, bindLabels_ofStatement, ih]
      rfl
    · rw [List.singleton_append, bindLabels_ofStatement, ih]

/-! ## 3. Writing bytes -/

/-- A statement is written as its encoding if the name of its target is bound. -/
theorem encodeItem_ofStatement {names : Names} {bound : List Address} (h : Binds names bound)
    {statement : Statement} (htarget : ∀ target ∈ statement.target?, target ∈ bound) :
    encodeItem names (.ofStatement statement) = .ok statement.encode := by
  cases statement with
  | data value => rfl
  | instruction form operand =>
    cases operand with
    | none => rfl
    | byte value => rfl
    | word target =>
      have hbound : names[target.label]? = some target := by
        rw [h target, if_pos (htarget target rfl)]
      have hresolve : resolve names (.name target.label) = .ok (.word target) := by
        rw [resolve, hbound]
      simp only [Item.ofStatement, Argument.ofOperand, encodeItem, hresolve]
      rfl

/-- **The items of the body are written as the encodings of its statements.** -/
theorem mapM_encodeItem (disassembly : Disassembly) {names : Names} {bound : List Address}
    (h : Binds names bound) {entries : List (Address × Statement)}
    (htargets : ∀ entry ∈ entries, ∀ target ∈ entry.2.target?, target ∈ bound) :
    ∃ pieces, (itemsOfAll disassembly entries).mapM (encodeItem names) = .ok pieces ∧
      pieces.flatten = (entries.map Prod.snd).flatMap Statement.encode := by
  induction entries with
  | nil => exact ⟨[], rfl, rfl⟩
  | cons entry rest ih =>
    obtain ⟨hentry, hrest⟩ := List.forall_mem_cons.mp htargets
    obtain ⟨pieces, hpieces, hflatten⟩ := ih hrest
    have hencode := encodeItem_ofStatement h hentry
    have hfirst : ∃ first, (itemsOf disassembly entry.1 entry.2).mapM (encodeItem names) =
        .ok first ∧ first.flatten = entry.2.encode := by
      unfold itemsOf
      split
      · refine ⟨[[], entry.2.encode], ?_, by simp⟩
        rw [List.mapM_cons, List.mapM_cons, hencode]
        rfl
      · refine ⟨[entry.2.encode], ?_, by simp⟩
        rw [List.mapM_cons, hencode]
        rfl
    obtain ⟨first, hfirst, hflattenFirst⟩ := hfirst
    refine ⟨first ++ pieces, ?_, ?_⟩
    · rw [itemsOfAll, List.flatMap_cons, ← itemsOfAll, List.mapM_append, hfirst, hpieces]
      rfl
    · rw [List.flatten_append, hflattenFirst, hflatten, List.map_cons, List.flatMap_cons]

/-! ## 4. Assembling listings -/

/-- The parts of a listing are divided by empty lines. -/
theorem span_lines {front rest : List (List Char)} (h : ∀ line ∈ front, line ≠ []) :
    (front ++ [] :: rest).span (fun line => !line.isEmpty) = (front, [] :: rest) := by
  -- the walk keeps in reverse what it has passed, so the induction is on what is still in front
  have hloop : ∀ passed : List (List Char),
      List.span.loop (fun line => !line.isEmpty) (front ++ [] :: rest) passed =
        (passed.reverse ++ front, [] :: rest) := by
    induction front with
    | nil =>
      intro passed
      rw [List.append_nil]
      rfl
    | cons line others ih =>
      intro passed
      obtain ⟨hline, hothers⟩ := List.forall_mem_cons.mp h
      have hstep :
          List.span.loop (fun line => !line.isEmpty) (line :: others ++ [] :: rest) passed =
            List.span.loop (fun line => !line.isEmpty) (others ++ [] :: rest) (line :: passed) := by
        cases line with
        | nil => exact absurd rfl hline
        | cons c text => rfl
      rw [hstep, ih hothers, List.reverse_cons, List.append_assoc]
      rfl
  exact hloop []

/-- The lines of a body that assembles, an empty line, definitions and the closing lines assemble to
what the body stands for. -/
theorem assembleLines_eq {body definitions : List (List Char)} {items : List Item}
    {bindings : List (String × Address)} {labels names : Names} {pieces : List (List UInt8)}
    (hbody : ∀ line ∈ body, line ≠ []) (hdefinitions : ∀ line ∈ definitions, line ≠ [])
    (hitems : body.mapM readItem = .ok items)
    (hbindings : definitions.mapM readDefinition = .ok bindings)
    (hlabels : bindLabels ∅ 0 items = .ok labels)
    (hnames : bindDefinitions labels bindings = .ok names)
    (hpieces : items.mapM (encodeItem names) = .ok pieces) :
    assembleLines (body ++ [] :: (definitions ++ closing)) = .ok pieces.flatten := by
  have hclosing : (definitions ++ closing).span (fun line => !line.isEmpty) =
      (definitions, closing) := span_lines hdefinitions
  simp only [assembleLines, span_lines hbody, List.drop_succ_cons, List.drop_zero, hclosing]
  simp only [ne_eq, not_true_eq_false, if_false, hitems, hbindings, Bind.bind, Except.bind, hlabels,
    hnames, hpieces, pure, Except.pure]

end Assembler

namespace Disassembly

theorem texts_eq (disassembly : Disassembly) :
    disassembly.texts =
      (disassembly.linesOfAll disassembly.shown).map Line.chars ++
        [] :: (disassembly.outside.map (fun address => (Line.definition address).chars) ++
          Assembler.closing) := by
  rw [texts, lines_eq, body_eq, behindBody]
  simp [Assembler.closing]

theorem ne_nil_of_mem_linesOfAll (disassembly : Disassembly)
    (entries : List (Address × Statement)) :
    ∀ line ∈ (disassembly.linesOfAll entries).map Line.chars, line ≠ [] := by
  intro line hmem
  obtain ⟨line, hline, rfl⟩ := List.mem_map.mp hmem
  obtain ⟨entry, -, hof⟩ := List.mem_flatMap.mp hline
  rcases (mem_linesOf_iff disassembly entry.1 entry.2 line).mp hof with ⟨rfl, -⟩ | rfl
  · simp
  · simp

/-- The operands of a row that are shown refer to addresses that have a label. -/
theorem target_mem_labels (blocks : List DataBlock) {statements : List Statement}
    (hroom : extent statements ≤ memorySize) {entry : Address × Statement}
    (hentry : entry ∈ (ofStatements blocks statements).shown) {target : Address}
    (htarget : entry.2.target? = some target) :
    target ∈ (ofStatements blocks statements).labels := by
  have hunit := ((mem_shown_iff blocks hroom entry).mp hentry).1
  rw [mem_labels_iff labelled_ofStatements, IsReferenced, referenced_ofStatements_iff]
  exact Or.inl ⟨entry.2, snd_mem_of_mem_addressed hunit, htarget⟩

/-- The listing of a fitting row assembles to what its body shows. -/
theorem assemble_ofStatements (blocks : List DataBlock) {forced : Address → Bool}
    {statements : List Statement} (hfitting : Fitting forced 0 statements)
    (hroom : extent statements ≤ memorySize) :
    assemble (ofStatements blocks statements).render.1 =
      .ok (((ofStatements blocks statements).shown.map Prod.snd).flatMap Statement.encode) := by
  have hwell := wellFormed_of_mem_shown blocks hfitting hroom
  have hnodup : (ofStatements blocks statements).labels.Nodup :=
    nodup_labels labelled_ofStatements (increasing_shown blocks hroom)
  obtain ⟨front, rest, -, hshown, -, -⟩ := exists_shown blocks hroom
  obtain ⟨labels, hlabels, hplaced⟩ := binds_nil.bindDefinitions (List.nodup_append.mp hnodup).1
  rw [List.nil_append] at hplaced
  obtain ⟨names, hnames, hbinds⟩ := hplaced.bindDefinitions hnodup
  obtain ⟨pieces, hpieces, hflatten⟩ := mapM_encodeItem (ofStatements blocks statements) hbinds
    fun entry hentry target htarget => target_mem_labels blocks hroom hentry htarget
  rw [assemble, splitOn_render _ hwell, texts_eq, ← hflatten]
  refine assembleLines_eq ?_ ?_ (mapM_readItem _ hwell) (mapM_readDefinition _) ?_ hnames hpieces
  · exact ne_nil_of_mem_linesOfAll _ _
  · intro line hmem
    obtain ⟨address, -, rfl⟩ := List.mem_map.mp hmem
    simp
  · rw [hshown, bindLabels_itemsOfAll, ← hshown]
    exact hlabels

end Disassembly

theorem flatMap_encode_front {forced : Address → Bool} {front rest : List Statement}
    (hfitting : Fitting forced 0 (front ++ rest)) {bytes : List UInt8}
    (h : (front ++ rest).flatMap Statement.encode = bytes.take (extent (front ++ rest))) :
    front.flatMap Statement.encode = bytes.take (extent front) := by
  have hfront : Fitting forced 0 front := by
    intro entry hentry
    refine hfitting entry ?_
    rw [addressed_append]
    exact List.mem_append_left _ hentry
  have hlength := length_flatMap_encode hfront
  have htake := congrArg (List.take (extent front)) h
  rw [List.flatMap_append, List.take_left' hlength, List.take_take, extent_append,
    Nat.min_eq_left (Nat.le_add_right _ _)] at htake
  exact htake

/-- **Listings assemble to the program.** The listing of every sweep that succeeds can be read, and
its names resolved, and gives the bytes in front of the stop.  Where a statement starts at the last
address of memory, it is left out, and the bytes are those in front of that address. -/
theorem assemble_render {stream : ByteStream} {blocks : List DataBlock}
    {disassembly : Disassembly} (h : (linearSweep stream blocks).result = .ok disassembly) :
    ((∃ statement, (0xffff, statement) ∈ disassembly.statements) →
        assemble disassembly.render.1 = .ok (stream.bytes.take 0xffff)) ∧
      ((¬ ∃ statement, (0xffff, statement) ∈ disassembly.statements) →
        assemble disassembly.render.1 = .ok (stream.bytes.take disassembly.stop)) := by
  obtain ⟨statements, rfl, hfitting, hroom, hencode⟩ := exists_statements_of_result h
  rw [Disassembly.assemble_ofStatements blocks hfitting hroom,
    Disassembly.statements_ofStatements hroom]
  obtain ⟨front, rest, rfl, hshown, hbelow, hend⟩ := Disassembly.exists_shown blocks hroom
  rw [hshown, map_snd_addressed, flatMap_encode_front hfitting hencode]
  constructor
  · rintro ⟨statement, hmem⟩
    rcases hend with rfl | hend
    · rw [List.append_nil] at hmem
      exact absurd (hbelow _ hmem) (Nat.lt_irrefl 0xffff)
    · rw [hend]
      rfl
  · intro hnone
    cases rest with
    | nil =>
      rw [List.append_nil]
      rfl
    | cons statement others =>
      rcases hend with hnil | hend
      · exact absurd hnil (by simp)
      · -- what is left out starts where the front ends, at the last address
        refine absurd ⟨statement, mem_addressed_iff.mpr ⟨front, others, rfl, ?_⟩⟩ hnone
        rw [hend]
        rfl

theorem Tiling.fitting_replicate (forced : Address → Bool) (address count : Nat) {value : UInt8}
    (h : InstructionForm.ofOpcode? value = none) :
    Fitting forced address (List.replicate count (.data value)) := by
  refine fitting_of_wellFormed ?_ ?_
  · intro statement hmem
    rw [List.eq_of_mem_replicate hmem]
    trivial
  · intro entry hentry
    rw [List.eq_of_mem_replicate (snd_mem_of_mem_addressed hentry)]
    exact Or.inr h

/-- A program that refers into its own instructions and behind its end, and memory that is full to
its last address. -/
theorem assemble_render_of_short_and_full_memory :
    (∃ disassembly,
      (linearSweep (.ofBytes [0xc3, 0x06, 0x00, 0x01, 0x01, 0x00, 0x41])
          [⟨6, 1, by decide, by decide⟩]).result = .ok disassembly ∧
        assemble disassembly.render.1 = .ok [0xc3, 0x06, 0x00, 0x01, 0x01, 0x00, 0x41]) ∧
      ∃ disassembly,
        (linearSweep (.ofBytes (List.replicate (0xffff + 1) 0x08)) []).result = .ok disassembly ∧
          assemble disassembly.render.1 = .ok (List.replicate 0xffff 0x08) := by
  constructor
  · let blocks : List DataBlock := [⟨6, 1, by decide, by decide⟩]
    let units : List Statement :=
      [.instruction ⟨0xc3, "jmp", "", .word⟩ (.word 6),
        .instruction ⟨0x01, "lxi", "b,", .word⟩ (.word 1), .data 0x41]
    have hfitting : Fitting (DataBlock.covers blocks) 0 units :=
      fitting_of_wellFormed (by decide) (by decide)
    have hroom : extent units ≤ memorySize := by decide
    have hresult := result_of_fitting hfitting hroom
    refine ⟨_, hresult, (assemble_render hresult).2 ?_⟩
    have hbelow : ∀ entry ∈ addressed 0 units, entry.1 ≠ 0xffff := by decide
    rw [Disassembly.statements_ofStatements hroom]
    rintro ⟨statement, hmem⟩
    exact hbelow _ hmem rfl
  · generalize hcount : 0xffff = count
    have hfitting := Tiling.fitting_replicate (DataBlock.covers []) 0 (count + 1)
      (show InstructionForm.ofOpcode? 0x08 = none by decide)
    have hextent : ∀ n, extent (List.replicate n (.data 0x08)) = n := by
      intro n
      induction n with
      | zero => rfl
      | succ n ih => rw [List.replicate_succ, extent_cons, ih, Statement.size, Nat.add_comm]
    have hencode : ∀ n, (List.replicate n (Statement.data 0x08)).flatMap Statement.encode =
        List.replicate n 0x08 := by
      intro n
      simp [List.flatMap_replicate, Statement.encode]
    have hroom : extent (List.replicate (count + 1) (.data 0x08)) ≤ memorySize := by
      rw [hextent, ← hcount]
      decide
    have hresult := result_of_fitting hfitting hroom
    rw [hencode] at hresult
    refine ⟨_, hresult, ?_⟩
    have hlast : ∃ statement, (0xffff, statement) ∈
        (Disassembly.ofStatements [] (List.replicate (count + 1) (.data 0x08))).statements := by
      rw [Disassembly.statements_ofStatements hroom]
      refine ⟨.data 0x08, mem_addressed_iff.mpr
        ⟨List.replicate count (.data 0x08), [], List.replicate_succ', ?_⟩⟩
      rw [hextent, ← hcount]
      rfl
    rw [(assemble_render hresult).1 hlast, hcount, ByteStream.bytes_ofBytes, List.take_replicate,
      Nat.min_eq_left (Nat.le_succ count)]

end Disassembler8080
