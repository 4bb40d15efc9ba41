/-
# bash's `[`

`bracket` evaluates the words between `[` and `]`: up to four of them by their
number, more as an expression of `-o`, `-a`, `!`, parentheses and the unary
and binary operators. It gives no value where `[` complains: a word too many
or too few, an operator it does not know, or a text that is no integer where
one is compared. The status is then 2, which `if` takes like 1.

The words come from unquoted texts, so a text that is empty or has blanks in
it changes their number. What `[` looks up outside its words is a parameter
(`Outside`), and so is pathname expansion, which leaves a word without
pattern characters alone.
-/
import Longan.Lib.Numeral

namespace Longan

open Text

/-- Pathname expansion, the tests of files and variables, and the binary tests
that look at files or at the locale. -/
structure Outside where
  glob : Text → List Text
  unary : Text → Text → Bool
  binary : Text → Text → Text → Bool
  glob_plain : ∀ w : Text, (∀ c ∈ w, c ∉ ['*', '?', '[', '\\']) → glob w = [w]

namespace Outside

/-- Words are what they are, and no file is there. -/
def inert : Outside := ⟨fun w => [w], fun _ _ => false, fun _ _ _ => false, fun _ _ => rfl⟩

variable (o : Outside)

/-- The words of an unquoted text. -/
def words (t : Text) : List Text := (fields t).flatMap o.glob

/-- An option of `echo`. -/
def echoOption : Text → Bool
  | '-' :: c :: r => (c :: r).all fun c => c ∈ ['n', 'e', 'E']
  | _ => false

/-- What `echo $t` prints. -/
def echo (t : Text) : Text := unwords ((o.words t).dropWhile echoOption)

/-! ### Operators -/

/-- The integer `[` reads from a word. -/
def legalNumber (t : Text) : Option ℤ :=
  (match t with
    | '+' :: r => (allDigits r).map Nat.cast
    | t => readInt t).filter fun z => -2 ^ 63 ≤ z ∧ z < 2 ^ 63

def integerOps : List Text := ["-eq".toList, "-ne".toList, "-lt".toList, "-le".toList, "-gt".toList,
  "-ge".toList]

def isBinary (t : Text) : Bool :=
  t ∈ ["=".toList, "==".toList, "!=".toList, "<".toList, ">".toList, "-nt".toList, "-ot".toList,
    "-ef".toList] ∨ t ∈ integerOps

def isUnary : Text → Bool
  | ['-', c] => c ∈ "abcdefghknoprstuvwxzGLNORS".toList
  | _ => false

def compareInts (op : Text) (a b : ℤ) : Bool :=
  if op = "-eq".toList then a = b
  else if op = "-ne".toList then a ≠ b
  else if op = "-lt".toList then a < b
  else if op = "-le".toList then a ≤ b
  else if op = "-gt".toList then b < a
  else b ≤ a

def evalBinary (a op b : Text) : Option Bool :=
  if op = "=".toList ∨ op = "==".toList then some (a = b)
  else if op = "!=".toList then some (a ≠ b)
  else if op ∈ integerOps then
    (legalNumber a).bind fun x => (legalNumber b).map fun y => compareInts op x y
  else some (o.binary op a b)

def evalUnary (op a : Text) : Bool :=
  if op = "-n".toList then a ≠ []
  else if op = "-z".toList then a = []
  else if op = "-t".toList ∧ legalNumber a = none then false
  else o.unary op a

/-! ### Expressions -/

mutual

/-- Alternatives: the value and the words left over. -/
def evalOr : ℕ → List Text → Option (Bool × List Text)
  | 0, _ => none
  | n + 1, ts =>
    match evalAnd n ts with
    | some (v, t :: r) =>
      if t = "-o".toList then (evalOr n r).map fun w => (v || w.1, w.2) else some (v, t :: r)
    | r => r

def evalAnd : ℕ → List Text → Option (Bool × List Text)
  | 0, _ => none
  | n + 1, ts =>
    match evalTerm n ts with
    | some (v, t :: r) =>
      if t = "-a".toList then (evalAnd n r).map fun w => (v && w.1, w.2) else some (v, t :: r)
    | r => r

def evalTerm : ℕ → List Text → Option (Bool × List Text)
  | 0, _ => none
  | _ + 1, [] => none
  | n + 1, t :: ts =>
    if t = ['!'] then (evalTerm n ts).map fun w => (!w.1, w.2)
    else if t = ['('] then
      match evalOr n ts with
      | some (v, u :: r) => if u = [')'] then some (v, r) else none
      | _ => none
    else match ts with
      | op :: b :: r =>
        if isBinary op then (evalBinary o t op b).map fun v => (v, r)
        else if isUnary t then
          some (evalUnary o t op, if t = "-t".toList ∧ legalNumber op = none then ts else b :: r)
        else some (t ≠ [], ts)
      | [a] =>
        if isUnary t then
          some (evalUnary o t a, if t = "-t".toList ∧ legalNumber a = none then ts else [])
        else some (t ≠ [], ts)
      | [] => some (t ≠ [], [])

end

/-! ### The words by their number -/

def two (a b : Text) : Option Bool :=
  if a = ['!'] then some (b = []) else if isUnary a then some (o.evalUnary a b) else none

def three (a b c : Text) : Option Bool :=
  if isBinary b then o.evalBinary a b c
  else if b = "-a".toList then some (a ≠ [] ∧ c ≠ [])
  else if b = "-o".toList then some (a ≠ [] ∨ c ≠ [])
  else if a = ['!'] then (o.two b c).map not
  else if a = ['('] ∧ c = [')'] then some (b ≠ [])
  else none

/-- All the words must belong to the expression; each of them takes three
steps at most. -/
def expression (ts : List Text) : Option Bool :=
  match o.evalOr (3 * ts.length + 3) ts with
  | some (v, []) => some v
  | _ => none

/-- The value of `[ t1 t2 ... ]`. -/
def bracket : List Text → Option Bool
  | [] => some false
  | [a] => some (a ≠ [])
  | [a, b] => o.two a b
  | [a, b, c] => o.three a b c
  | [a, b, c, d] =>
    if a = ['!'] then (o.three b c d).map not
    else if a = ['('] ∧ d = [')'] then o.two b c
    else o.expression [a, b, c, d]
  | ts => o.expression ts

/-- Whether `if [ t1 t2 ... ]` takes its branch. -/
def holds (ts : List Text) : Bool := o.bracket ts = some true

/-! ### Integers -/

/-- The text is one word, an integer. -/
def ReadsAs (t : Text) (z : ℤ) : Prop := ∃ w, fields t = [w] ∧ legalNumber w = some z

theorem legalNumber_intText {z : ℤ} (h : -2 ^ 63 ≤ z ∧ z < 2 ^ 63) : legalNumber (intText z) = some z := by
  have hplus : ∀ r, intText z ≠ '+' :: r := by
    intro r hr
    have hc : '+' ∈ intText z := hr ▸ List.mem_cons_self
    unfold intText at hc
    split_ifs at hc
    · rcases List.mem_cons.mp hc with hc | hc
      · exact absurd hc (by decide)
      · exact not_mem_decimal (by decide) _ hc
    · exact not_mem_decimal (by decide) _ hc
  unfold legalNumber
  split
  · rename_i r hr
    exact absurd hr (hplus r)
  · rw [readInt_intText, Option.filter_some_pos (by simpa using h)]

theorem mem_of_allDigits {t : Text} {n : ℕ} (h : allDigits t = some n) {c : Char} (hc : c ∈ t) :
    c.isDigit = true := by
  unfold allDigits at h
  split_ifs at h with ht
  exact List.all_eq_true.mp ht.2 c hc

theorem mem_of_legalNumber {t : Text} {z : ℤ} (h : legalNumber t = some z) {c : Char} (hc : c ∈ t) :
    c.isDigit = true ∨ c = '+' ∨ c = '-' := by
  unfold legalNumber at h
  obtain ⟨h, -⟩ := Option.filter_eq_some_iff.mp h
  split at h
  · obtain ⟨n, hn, -⟩ := Option.map_eq_some_iff.mp h
    rcases List.mem_cons.mp hc with hc | hc
    · exact .inr (.inl hc)
    · exact .inl (mem_of_allDigits hn hc)
  · unfold readInt at h
    split at h
    · obtain ⟨n, hn, -⟩ := Option.map_eq_some_iff.mp h
      rcases List.mem_cons.mp hc with hc | hc
      · exact .inr (.inr hc)
      · exact .inl (mem_of_allDigits hn hc)
    · obtain ⟨n, hn, -⟩ := Option.map_eq_some_iff.mp h
      exact .inl (mem_of_allDigits hn hc)

/-- A character that no integer has. -/
theorem not_mem_of_legalNumber {t : Text} {z : ℤ} (h : legalNumber t = some z) {c : Char}
    (hd : c.isDigit = false) (hp : c ≠ '+') (hm : c ≠ '-') : c ∉ t := by
  intro hc
  rcases mem_of_legalNumber h hc with h | h | h
  · rw [hd] at h
    cases h
  · exact hp h
  · exact hm h

variable {o}

theorem words_of_reads {t w : Text} {z : ℤ} (ht : fields t = [w]) (hw : legalNumber w = some z) :
    o.words t = [w] := by
  rw [words, ht, List.flatMap_singleton]
  refine o.glob_plain w fun c hc hp => ?_
  simp only [List.mem_cons, List.not_mem_nil, or_false] at hp
  rcases hp with rfl | rfl | rfl | rfl
  · exact not_mem_of_legalNumber hw (by decide) (by decide) (by decide) hc
  · exact not_mem_of_legalNumber hw (by decide) (by decide) (by decide) hc
  · exact not_mem_of_legalNumber hw (by decide) (by decide) (by decide) hc
  · exact not_mem_of_legalNumber hw (by decide) (by decide) (by decide) hc

theorem evalBinary_ints {op a b : Text} {x y : ℤ} (hop : op ∈ integerOps) (ha : legalNumber a = some x)
    (hb : legalNumber b = some y) : o.evalBinary a op b = some (compareInts op x y) := by
  have hne : op ≠ "=".toList ∧ op ≠ "==".toList ∧ op ≠ "!=".toList := by
    simp only [integerOps, List.mem_cons, List.not_mem_nil, or_false] at hop
    rcases hop with rfl | rfl | rfl | rfl | rfl | rfl <;> decide
  rw [evalBinary, if_neg (not_or.mpr ⟨hne.1, hne.2.1⟩), if_neg hne.2.2, if_pos hop, ha, hb]
  rfl

/-- A comparison of two integers. -/
theorem evalTerm_ints {op a b : Text} {x y : ℤ} (hop : op ∈ integerOps) (ha : legalNumber a = some x)
    (hb : legalNumber b = some y) (n : ℕ) (r : List Text) :
    o.evalTerm (n + 1) (a :: op :: b :: r) = some (compareInts op x y, r) := by
  have hnot : a ≠ ['!'] := fun h =>
    not_mem_of_legalNumber ha (c := '!') (by decide) (by decide) (by decide) (h ▸ List.mem_cons_self)
  have hpar : a ≠ ['('] := fun h =>
    not_mem_of_legalNumber ha (c := '(') (by decide) (by decide) (by decide) (h ▸ List.mem_cons_self)
  have hbin : isBinary op = true := by simp [isBinary, hop]
  rw [evalTerm, if_neg hnot, if_neg hpar]
  simp only [hbin, ↓reduceIte, evalBinary_ints hop ha hb, Option.map_some]

/-- `[ a op b ]`. -/
theorem holds_ints {op a b : Text} {x y : ℤ} (hop : op ∈ integerOps) (ha : legalNumber a = some x)
    (hb : legalNumber b = some y) : o.holds [a, op, b] = compareInts op x y := by
  have hbin : isBinary op = true := by simp [isBinary, hop]
  rw [holds, bracket, three, if_pos hbin, evalBinary_ints hop ha hb]
  simp

/-- `[ a op b -a c op' d ]`. -/
theorem holds_and_ints {op op' a b c d : Text} {x y z w : ℤ} (hop : op ∈ integerOps)
    (hop' : op' ∈ integerOps) (ha : legalNumber a = some x) (hb : legalNumber b = some y)
    (hc : legalNumber c = some z) (hd : legalNumber d = some w) :
    o.holds [a, op, b, "-a".toList, c, op', d] = (compareInts op x y && compareInts op' z w) := by
  have hright : o.evalAnd 22 [c, op', d] = some (compareInts op' z w, []) := by
    rw [evalAnd, evalTerm_ints hop' hc hd 20]
  have hand : o.evalAnd 23 [a, op, b, "-a".toList, c, op', d] =
      some (compareInts op x y && compareInts op' z w, []) := by
    rw [evalAnd, evalTerm_ints hop ha hb 21]
    show (if _ then _ else _) = _
    rw [if_pos rfl, hright]
    rfl
  have hor : o.evalOr 24 [a, op, b, "-a".toList, c, op', d] =
      some (compareInts op x y && compareInts op' z w, []) := by
    rw [evalOr, hand]
  rw [holds, bracket, expression]
  · show decide ((match o.evalOr 24 [a, op, b, "-a".toList, c, op', d] with
      | some (v, []) => some v
      | _ => none) = some true) = _
    rw [hor]
    simp
  all_goals intros; simp at *

/-- `[ a op b -a op' d ]`: the word before `op'` is missing, and `[` complains
about `d`. -/
theorem holds_and_missing {op op' a b d : Text} {x y w : ℤ} (hop : op ∈ integerOps)
    (hop' : op' ∈ integerOps) (ha : legalNumber a = some x) (hb : legalNumber b = some y)
    (hd : legalNumber d = some w) : o.holds [a, op, b, "-a".toList, op', d] = false := by
  have hletter : ∀ {c : Char} {t : Text}, c ∈ t → c.isDigit = false → c ≠ '+' → c ≠ '-' → d ≠ t :=
    fun hc h1 h2 h3 he => not_mem_of_legalNumber hd h1 h2 h3 (he ▸ hc)
  have hda : d ≠ "-a".toList := hletter (c := 'a') (by decide) (by decide) (by decide) (by decide)
  have hdo : d ≠ "-o".toList := hletter (c := 'o') (by decide) (by decide) (by decide) (by decide)
  have hterm : o.evalTerm 18 [op', d] = some (true, [d]) := by
    simp only [integerOps, List.mem_cons, List.not_mem_nil, or_false] at hop'
    rcases hop' with rfl | rfl | rfl | rfl | rfl | rfl <;> rfl
  have hright : o.evalAnd 19 [op', d] = some (true, [d]) := by
    rw [evalAnd, hterm]
    exact if_neg hda
  have hand : o.evalAnd 20 [a, op, b, "-a".toList, op', d] = some (compareInts op x y && true, [d]) := by
    rw [evalAnd, evalTerm_ints hop ha hb 18]
    show (if _ then _ else _) = _
    rw [if_pos rfl, hright]
    rfl
  have hor : o.evalOr 21 [a, op, b, "-a".toList, op', d] = some (compareInts op x y && true, [d]) := by
    rw [evalOr, hand]
    exact if_neg hdo
  rw [holds, bracket, expression]
  · show decide ((match o.evalOr 21 [a, op, b, "-a".toList, op', d] with
      | some (v, []) => some v
      | _ => none) = some true) = _
    rw [hor]
    rfl
  all_goals intros; simp at *

end Outside
end Longan
