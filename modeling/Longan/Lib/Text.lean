/-
# Texts, lines and words

What a shell pipeline does to text: a line splits into its blank-separated
words (`fields`: awk's fields, and the word splitting of an unquoted
expansion), `grep` keeps the lines that hold a fixed string, a command
substitution joins the lines it read, and `${x#*c}`, `${x%%c*}`, `${x%c*}`
cut a text at a character.

The lemmas say what `fields` gives on words put together with a blank
between them (`fields_unwords`), which lines of words a fixed string with
blanks in it can be found in (`infix_two_words`), and where the cuts fall.
-/
import Mathlib.Data.List.Basic
import Mathlib.Data.List.Infix
import Mathlib.Data.List.DropRight

namespace Longan

/-- A text, character by character. -/
abbrev Text := List Char

namespace Text

instance (t : Text) (ts : List Text) : Decidable (t ∈ ts) := List.instDecidableMemOfLawfulBEq t ts

/-! ### Words -/

/-- The characters that separate words: blank, tab and newline. -/
def isBlank (c : Char) : Bool := c = ' ' ∨ c = '\t' ∨ c = '\n'

/-- A word: something, and no blank in it. -/
def IsWord (w : Text) : Prop := w ≠ [] ∧ ∀ c ∈ w, isBlank c = false

-- through the characters of the word, not through all there are
instance (w : Text) : Decidable (IsWord w) :=
  @instDecidableAnd _ _ inferInstance (List.decidableBAll _ w)

/-- The words of a text. -/
def fields (t : Text) : List Text := (t.splitOnP isBlank).filter (· ≠ [])

/-- awk's `$n`, for `n` from 1 on: empty past the last word. -/
def field (n : ℕ) (t : Text) : Text := (fields t).getD (n - 1) []

/-- Words put together with a blank between them. -/
def unwords : List Text → Text
  | [] => []
  | [w] => w
  | w :: ws => w ++ ' ' :: unwords ws

theorem fields_nil : fields [] = [] := rfl

theorem fields_blank {c : Char} (h : isBlank c = true) (t : Text) : fields (c :: t) = fields t := by
  unfold fields
  rw [List.splitOnP_cons_eq_if_modifyHead, if_pos h]
  simp

theorem fields_word {w : Text} (h : IsWord w) : fields w = [w] := by
  unfold fields
  rw [List.splitOnP_eq_singleton h.2]
  simp [h.1]

theorem fields_append_blank (u : Text) {c : Char} (hc : isBlank c = true) (v : Text) :
    fields (u ++ c :: v) = fields u ++ fields v := by
  unfold fields
  rw [List.splitOnP_append_cons u v hc, List.filter_append]

/-- The first word comes off at the first blank. -/
theorem fields_append {w : Text} (h : IsWord w) {c : Char} (hc : isBlank c = true) (t : Text) :
    fields (w ++ c :: t) = w :: fields t := by
  rw [fields_append_blank w hc, fields_word h]
  rfl

/-- The pieces between blanks have none in them. -/
theorem not_blank_of_mem_splitOnP : ∀ (t : Text), ∀ u ∈ t.splitOnP isBlank, ∀ c ∈ u, isBlank c = false
  | [], u, hu, c, hc => by
    rw [List.splitOnP_nil, List.mem_singleton] at hu
    subst hu
    cases hc
  | x :: t, u, hu, c, hc => by
    have ih := not_blank_of_mem_splitOnP t
    rw [List.splitOnP_cons_eq_if_modifyHead] at hu
    split_ifs at hu with hx
    · rcases List.mem_cons.mp hu with rfl | hu
      · cases hc
      · exact ih u hu c hc
    · cases hs : t.splitOnP isBlank with
      | nil => exact absurd hs (List.splitOnP_ne_nil _ _)
      | cons v vs =>
        rw [hs, List.modifyHead_cons] at hu
        rcases List.mem_cons.mp hu with rfl | hu
        · rcases List.mem_cons.mp hc with rfl | hc
          · exact Bool.eq_false_iff.mpr hx
          · exact ih v (by rw [hs]; exact List.mem_cons_self) c hc
        · exact ih u (by rw [hs]; exact List.mem_cons_of_mem v hu) c hc

theorem isWord_of_mem_fields {t w : Text} (h : w ∈ fields t) : IsWord w := by
  obtain ⟨hmem, hne⟩ := List.mem_filter.mp h
  exact ⟨of_decide_eq_true hne, not_blank_of_mem_splitOnP t w hmem⟩

theorem unwords_cons {w : Text} {ws : List Text} (h : ws ≠ []) :
    unwords (w :: ws) = w ++ ' ' :: unwords ws := by
  obtain ⟨v, vs, rfl⟩ := List.exists_cons_of_ne_nil h
  rfl

/-- Words come off what they are put in front of. -/
theorem fields_unwords_append : ∀ ws vs : List Text, (∀ w ∈ ws, IsWord w) →
    fields (unwords (ws ++ vs)) = ws ++ fields (unwords vs)
  | [], _, _ => rfl
  | w :: ws, vs, h => by
    have ih := fields_unwords_append ws vs fun x hx => h x (List.mem_cons_of_mem _ hx)
    rcases eq_or_ne (ws ++ vs) [] with he | he
    · obtain ⟨rfl, rfl⟩ := List.append_eq_nil_iff.mp he
      exact fields_word (h w List.mem_cons_self)
    · rw [List.cons_append, unwords_cons he, fields_append (h w List.mem_cons_self) rfl, ih]
      rfl

/-- Words put together come apart again. -/
theorem fields_unwords (ws : List Text) (h : ∀ w ∈ ws, IsWord w) : fields (unwords ws) = ws := by
  have happ := fields_unwords_append ws [] h
  rwa [List.append_nil, unwords, fields_nil, List.append_nil] at happ

theorem field_unwords (ws : List Text) (h : ∀ w ∈ ws, IsWord w) (n : ℕ) :
    field n (unwords ws) = ws.getD (n - 1) [] := by
  rw [field, fields_unwords ws h]

/-! ### Lines -/

/-- `grep pat` for a fixed string: the lines that hold it. -/
def grep (pat : Text) (ls : List Text) : List Text := ls.filter fun l => pat <:+: l

theorem grep_eq_nil {pat : Text} {ls : List Text} : grep pat ls = [] ↔ ∀ l ∈ ls, ¬pat <:+: l := by
  simp [grep]

/-- The first line it keeps is the first that holds the string. -/
theorem head?_grep (pat : Text) (ls : List Text) :
    (grep pat ls).head? = ls.find? fun l => pat <:+: l := List.head?_filter

/-- The text of `$(...)` over the lines the command printed: a newline
between them, those at the end gone. -/
def commandSubst (ls : List Text) : Text := (['\n'].intercalate ls).rdropWhile (· = '\n')

theorem commandSubst_single {l : Text} (h : IsWord l) : commandSubst [l] = l := by
  simp only [commandSubst, List.intercalate_singleton]
  rw [List.rdropWhile_eq_self_iff]
  intro hl
  have := h.2 _ (List.getLast_mem hl)
  simp only [decide_eq_true_eq]
  intro he
  rw [he] at this
  exact absurd this (by decide)

theorem fields_intercalate : ∀ ls : List Text, fields (['\n'].intercalate ls) = ls.flatMap fields
  | [] => rfl
  | [l] => by rw [List.intercalate_singleton, List.flatMap_singleton]
  | l :: m :: ls => by
    have hcons : ['\n'].intercalate (l :: m :: ls) = l ++ '\n' :: ['\n'].intercalate (m :: ls) := by
      simp [List.intercalate]
    rw [hcons, fields_append_blank l rfl, fields_intercalate (m :: ls)]
    rfl

theorem fields_rdropWhile (t : Text) : fields (t.rdropWhile (· = '\n')) = fields t := by
  induction t using List.reverseRecOn with
  | nil => rfl
  | append_singleton l c ih =>
    rw [List.rdropWhile_concat]
    split_ifs with hc
    · rw [ih, of_decide_eq_true hc, fields_append_blank l rfl, fields_nil, List.append_nil]
    · rfl

/-- What is printed line by line and read back by an unquoted expansion: the
words of the lines. -/
theorem fields_commandSubst (ls : List Text) : fields (commandSubst ls) = ls.flatMap fields := by
  rw [commandSubst, fields_rdropWhile, fields_intercalate]

theorem fields_commandSubst_words (ws : List Text) (h : ∀ w ∈ ws, IsWord w) :
    fields (commandSubst ws) = ws := by
  rw [fields_commandSubst, List.flatMap_congr fun w hw => fields_word (h w hw), List.flatMap_singleton']

/-- The first `c` of a text is in one place. -/
theorem append_cons_inj {c : Char} : ∀ {u a v b : Text}, c ∉ u → c ∉ a →
    u ++ c :: v = a ++ c :: b → u = a ∧ v = b
  | [], [], _, _, _, _, h => ⟨rfl, by simpa using h⟩
  | [], y :: a, _, _, _, ha, h => by
    simp only [List.nil_append, List.cons_append, List.cons.injEq] at h
    exact absurd (h.1 ▸ List.mem_cons_self) ha
  | x :: u, [], _, _, hu, _, h => by
    simp only [List.nil_append, List.cons_append, List.cons.injEq] at h
    exact absurd (h.1 ▸ List.mem_cons_self) hu
  | x :: u, y :: a, _, _, hu, ha, h => by
    simp only [List.cons_append, List.cons.injEq] at h
    obtain ⟨e1, e2⟩ := append_cons_inj (List.not_mem_of_not_mem_cons hu)
      (List.not_mem_of_not_mem_cons ha) h.2
    exact ⟨by rw [h.1, e1], e2⟩

/-- A pattern of two words, each followed by a blank, is found in a line of
three words only at its start: the first word of the pattern ends the first
word of the line, and the second words are the same. -/
theorem infix_two_words {u v a b c : Text} (hu : ' ' ∉ u) (hv : ' ' ∉ v) (ha : ' ' ∉ a)
    (hb : ' ' ∉ b) (hc : ' ' ∉ c) (h : (u ++ ' ' :: (v ++ [' '])) <:+: a ++ ' ' :: (b ++ ' ' :: c)) :
    u <:+ a ∧ v = b := by
  obtain ⟨s, t, hst⟩ := h
  have hs : ' ' ∉ s := by
    intro hm
    have h1 := congrArg (List.count ' ') hst
    simp only [List.count_append, List.count_cons, List.count_nil, List.count_eq_zero_of_not_mem hu,
      List.count_eq_zero_of_not_mem hv, List.count_eq_zero_of_not_mem ha,
      List.count_eq_zero_of_not_mem hb, List.count_eq_zero_of_not_mem hc] at h1
    have h2 := List.count_pos_iff.mpr hm
    simp at h1
    omega
  have h1 : (s ++ u) ++ ' ' :: (v ++ ' ' :: t) = a ++ ' ' :: (b ++ ' ' :: c) := by
    rw [← hst]; simp
  have hsu : ' ' ∉ s ++ u := by simp [hs, hu]
  obtain ⟨e1, e2⟩ := append_cons_inj hsu ha h1
  obtain ⟨e3, -⟩ := append_cons_inj hv hb e2
  exact ⟨⟨s, e1⟩, e3⟩

/-! ### Cuts -/

/-- `${t#*c}`: what follows the first `c`, all of `t` without one. -/
def afterFirst (c : Char) (t : Text) : Text :=
  match t.dropWhile (· ≠ c) with
  | [] => t
  | _ :: r => r

/-- `${t%%c*}`: what precedes the first `c`. -/
def beforeFirst (c : Char) (t : Text) : Text := t.takeWhile (· ≠ c)

/-- `${t%c*}`: what precedes the last `c`, all of `t` without one. -/
def beforeLast (c : Char) (t : Text) : Text :=
  match t.reverse.dropWhile (· ≠ c) with
  | [] => t
  | _ :: r => r.reverse

theorem dropWhile_ne_append {c : Char} : ∀ {u : Text}, c ∉ u → ∀ v : Text,
    (u ++ c :: v).dropWhile (· ≠ c) = c :: v
  | [], _, v => by simp
  | x :: u, h, v => by
    simp only [List.mem_cons, not_or] at h
    have ih := dropWhile_ne_append h.2 v
    simp only [List.cons_append, List.dropWhile_cons, ne_eq, Ne.symm h.1, not_false_eq_true,
      decide_true, ↓reduceIte]
    exact ih

theorem dropWhile_ne_of_not_mem {c : Char} {u : Text} (h : c ∉ u) : u.dropWhile (· ≠ c) = [] := by
  rw [List.dropWhile_eq_nil_iff]
  intro x hx
  simp only [ne_eq, decide_eq_true_eq]
  rintro rfl
  exact h hx

theorem beforeLast_append {c : Char} (u : Text) {v : Text} (h : c ∉ v) :
    beforeLast c (u ++ c :: v) = u := by
  have hr : (u ++ c :: v).reverse = v.reverse ++ c :: u.reverse := by simp
  rw [beforeLast, hr, dropWhile_ne_append (by simpa using h)]
  simp

theorem beforeLast_of_not_mem {c : Char} {u : Text} (h : c ∉ u) : beforeLast c u = u := by
  rw [beforeLast, dropWhile_ne_of_not_mem (by simpa using h)]

end Text
end Longan
