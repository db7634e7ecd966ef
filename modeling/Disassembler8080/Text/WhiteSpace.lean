/-
# White space

The characters with the Unicode property White_Space, and texts with such characters removed from
both ends.

Main statements: `trim_append` (surrounding white space does not matter), `trim_eq_self` (a text
with none at its ends is left alone) and `exists_blank_around` (nothing but white space is removed).
-/

namespace Disassembler8080.Text

/-- The code points with the property White_Space, as ranges with both ends included. -/
def whiteSpaceRanges : List (Nat × Nat) :=
  [(0x09, 0x0d), (0x20, 0x20), (0x85, 0x85), (0xa0, 0xa0), (0x1680, 0x1680), (0x2000, 0x200a),
    (0x2028, 0x2029), (0x202f, 0x202f), (0x205f, 0x205f), (0x3000, 0x3000)]

/-- Whether a character is white space. -/
def isWhiteSpace (c : Char) : Bool :=
  whiteSpaceRanges.any fun (first, last) => first ≤ c.toNat && c.toNat ≤ last

/-- A text without the white space at its front. -/
def trimFront (text : List Char) : List Char := text.dropWhile isWhiteSpace

/-- A text without the white space at its front and its back. -/
def trim (text : List Char) : List Char := (trimFront (trimFront text).reverse).reverse

theorem trimFront_append {blank : List Char} (h : ∀ c ∈ blank, isWhiteSpace c = true)
    (text : List Char) : trimFront (blank ++ text) = trimFront text := by
  induction blank with
  | nil => rfl
  | cons c rest ih =>
    simp only [trimFront, List.cons_append, List.dropWhile_cons, h c List.mem_cons_self, if_true]
    exact ih fun d hd => h d (List.mem_cons_of_mem c hd)

/-- A text that does not begin with white space is left alone. -/
theorem trimFront_eq_self {text : List Char} (h : ∀ c ∈ text.head?, isWhiteSpace c = false) :
    trimFront text = text := by
  cases text with
  | nil => rfl
  | cons c rest => simp [trimFront, h c rfl]

/-- White space around a text that neither begins nor ends with any is removed. -/
theorem trim_append {front back text : List Char} (hf : ∀ c ∈ front, isWhiteSpace c = true)
    (hb : ∀ c ∈ back, isWhiteSpace c = true) (hhead : ∀ c ∈ text.head?, isWhiteSpace c = false)
    (hlast : ∀ c ∈ text.getLast?, isWhiteSpace c = false) :
    trim (front ++ text ++ back) = text := by
  have hback : ∀ c ∈ back.reverse, isWhiteSpace c = true := by simpa using hb
  have hlast' : ∀ c ∈ text.reverse.head?, isWhiteSpace c = false := by
    simpa [List.head?_reverse] using hlast
  cases text with
  | nil =>
    have hnone : trimFront (front ++ [] ++ back) = [] := by
      rw [List.append_assoc, trimFront_append hf]
      simpa [trimFront] using trimFront_append hb []
    rw [trim, hnone]
    rfl
  | cons c rest =>
    have hfront : trimFront (front ++ (c :: rest) ++ back) = (c :: rest) ++ back := by
      rw [List.append_assoc, trimFront_append hf]
      exact trimFront_eq_self (by simpa using hhead)
    rw [trim, hfront, List.reverse_append, trimFront_append hback, trimFront_eq_self hlast',
      List.reverse_reverse]

/-- A text that neither begins nor ends with white space is left alone. -/
theorem trim_eq_self {text : List Char} (hhead : ∀ c ∈ text.head?, isWhiteSpace c = false)
    (hlast : ∀ c ∈ text.getLast?, isWhiteSpace c = false) : trim text = text := by
  have h := @trim_append [] [] text (by simp) (by simp) hhead hlast
  simpa using h

/-- Nothing is removed but white space, at both ends. -/
theorem exists_blank_around (text : List Char) :
    ∃ front back, (∀ c ∈ front, isWhiteSpace c = true) ∧ (∀ c ∈ back, isWhiteSpace c = true) ∧
      text = front ++ trim text ++ back := by
  have hsplit : ∀ part : List Char, part.takeWhile isWhiteSpace ++ trimFront part = part :=
    fun _ => List.takeWhile_append_dropWhile
  have hblank : ∀ part : List Char, ∀ c ∈ part.takeWhile isWhiteSpace, isWhiteSpace c = true :=
    fun part => List.all_eq_true.mp List.all_takeWhile
  refine ⟨text.takeWhile isWhiteSpace, ((trimFront text).reverse.takeWhile isWhiteSpace).reverse,
    hblank text, fun c hc => hblank _ c (List.mem_reverse.mp hc), ?_⟩
  rw [trim, List.append_assoc, ← List.reverse_append, hsplit, List.reverse_reverse, hsplit]

end Disassembler8080.Text
