/-
# A `sed -i` from Python

`shlex` splits a command into words the way `shlex.split` does: at white space,
with quotes and backslashes. `sed` runs a script `s/regex/replacement/` without
flags on the lines of a file, for a regular expression `^text.*`; a replacement
with a backslash in it is not modelled and gives no result, like a script that
is none.

With plain words and a value that has none of the characters that `s` gives a
meaning to, the command is what it looks like: it assigns the value to a key
(`sed_assign`).
-/
import Longan.Lib.KeyLines

namespace Longan
namespace Sed

open KeyLines

/-! ### Words -/

def isSpace (c : Char) : Bool := c ∈ [' ', '\t', '\r', '\n']

def isQuote (c : Char) : Bool := c ∈ ['\x27', '\x22']

/-- The words of a text, where `quote` is the open quote and `word` holds the
characters of the word that has begun. -/
def split (quote : Option Char) (word : Option Text) : Text → Option (List Text)
  | [] => if quote = none then some word.toList else none
  | c :: r =>
    let more := fun t : Text => some (word.getD [] ++ t)
    if quote = none then
      if isSpace c then (split none none r).map (word.toList ++ ·)
      else if isQuote c then split (some c) (more []) r
      else if c = '\\' then match r with
        | [] => none
        | d :: r => split none (more [d]) r
      else split none (more [c]) r
    else if quote = some c then split none word r
    else if c = '\\' ∧ quote = some '\x22' then match r with
      | [] => none
      | d :: r => split quote (more (if d = '\x22' ∨ d = '\\' then [d] else [c, d])) r
    else split quote (more [c]) r

def shlex (t : Text) : Option (List Text) := split none none t

/-- A character that stands for itself. -/
def Plain (c : Char) : Prop := isSpace c = false ∧ isQuote c = false ∧ c ≠ '\\'

instance (c : Char) : Decidable (Plain c) := inferInstanceAs (Decidable (_ ∧ _))

theorem split_cons {c : Char} (hc : Plain c) (word : Option Text) (r : Text) :
    split none word (c :: r) = split none (some (word.getD [] ++ [c])) r := by
  obtain ⟨hs, hq, hb⟩ := hc
  rw [split.eq_def]
  simp only [hs, hq, hb, ↓reduceIte, Bool.false_eq_true]

theorem split_append : ∀ {w : Text}, (∀ c ∈ w, Plain c) → ∀ u r : Text,
    split none (some u) (w ++ r) = split none (some (u ++ w)) r
  | [], _, u, r => by rw [List.nil_append, List.append_nil]
  | c :: w, h, u, r => by
    have ih := split_append (fun d hd => h d (List.mem_cons_of_mem c hd)) (u ++ [c]) r
    rw [List.cons_append, split_cons (h c List.mem_cons_self), Option.getD_some, ih, List.append_assoc]
    rfl

theorem split_word {w : Text} (hw : w ≠ []) (h : ∀ c ∈ w, Plain c) (r : Text) :
    split none none (w ++ r) = split none (some w) r := by
  obtain ⟨c, w, rfl⟩ := List.exists_cons_of_ne_nil hw
  rw [List.cons_append, split_cons (h c List.mem_cons_self),
    split_append fun d hd => h d (List.mem_cons_of_mem c hd)]
  rfl

/-- Plain words with a blank between them come apart. -/
theorem shlex_unwords : ∀ {ws : List Text}, (∀ w ∈ ws, w ≠ [] ∧ ∀ c ∈ w, Plain c) →
    shlex (Text.unwords ws) = some ws
  | [], _ => rfl
  | [w], h => by
    obtain ⟨hw, hc⟩ := h w List.mem_cons_self
    have hsplit := split_word hw hc []
    rw [List.append_nil] at hsplit
    exact hsplit
  | w :: v :: ws, h => by
    obtain ⟨hw, hc⟩ := h w List.mem_cons_self
    have ih : split none none (Text.unwords (v :: ws)) = some (v :: ws) :=
      shlex_unwords fun x hx => h x (List.mem_cons_of_mem w hx)
    have hunwords : Text.unwords (w :: v :: ws) = w ++ ' ' :: Text.unwords (v :: ws) := rfl
    have hblank : isSpace ' ' = true := rfl
    rw [shlex, hunwords, split_word hw hc, split.eq_def]
    simp only [↓reduceIte, hblank, ih]
    rfl

/-! ### The script -/

structure Subst where
  regex : Text
  replacement : Text

/-- Up to the next `/`; a backslash keeps the character after it. -/
def cut : Text → Option (Text × Text)
  | [] => none
  | c :: r =>
    if c = '/' then some ([], r)
    else if c = '\n' then none
    else if c = '\\' then match r with
      | [] => none
      | d :: r => (cut r).map fun x => (c :: d :: x.1, x.2)
    else (cut r).map fun x => (c :: x.1, x.2)

def parse : Text → Option Subst
  | 's' :: '/' :: t => (cut t).bind fun x => (cut x.2).bind fun y =>
      if y.2 = [] then some ⟨x.1, y.1⟩ else none
  | _ => none

/-- The text of a regular expression `^text.*`. -/
def anchored : Text → Option Text
  | '^' :: t =>
    let text := t.take (t.length - 2)
    if t = text ++ ['.', '*'] ∧ text.all fun c => c ∉ ['.', '*', '[', ']', '\\', '^', '$'] then some text
    else none
  | _ => none

/-- The replacement with `&` for what was matched. -/
def expand (matched : Text) (replacement : Text) : Text :=
  replacement.flatMap fun c => if c = '&' then matched else [c]

/-- The lines after the script. -/
def sed (script : Text) (lines : List Text) : Option (List Text) :=
  (parse script).bind fun s => (anchored s.regex).bind fun text =>
    if '\\' ∈ s.replacement then none
    else some (lines.map fun l => if text <+: l then expand l s.replacement else l)

theorem cut_append : ∀ {u : Text}, (∀ c ∈ u, c ∉ ['/', '\n', '\\']) → ∀ r : Text,
    cut (u ++ '/' :: r) = some (u, r)
  | [], _, r => by
    rw [List.nil_append, cut.eq_def]
    exact if_pos rfl
  | c :: u, h, r => by
    have ih := cut_append (fun d hd => h d (List.mem_cons_of_mem c hd)) r
    have hc := h c List.mem_cons_self
    simp only [List.mem_cons, List.not_mem_nil, or_false, not_or] at hc
    rw [List.cons_append, cut.eq_def]
    simp only [hc.1, hc.2.1, hc.2.2, ↓reduceIte, ih]
    rfl

theorem anchored_cons (t : Text) : anchored ('^' :: t) =
    if t = t.take (t.length - 2) ++ ['.', '*'] ∧
        (t.take (t.length - 2)).all fun c => c ∉ ['.', '*', '[', ']', '\\', '^', '$'] then
      some (t.take (t.length - 2))
    else none := rfl

theorem anchored_text {u : Text} (h : ∀ c ∈ u, c ∉ ['.', '*', '[', ']', '\\', '^', '$']) :
    anchored ('^' :: (u ++ ['.', '*'])) = some u := by
  have htake : (u ++ ['.', '*']).take ((u ++ ['.', '*']).length - 2) = u := by
    have hlength : (u ++ ['.', '*']).length - 2 = u.length := by
      rw [List.length_append]
      rfl
    rw [hlength, List.take_left]
  rw [anchored_cons, htake]
  exact if_pos ⟨rfl, List.all_eq_true.mpr fun c hc => decide_eq_true (h c hc)⟩

theorem expand_plain {t : Text} (h : '&' ∉ t) (matched : Text) : expand matched t = t := by
  have hid : ∀ c ∈ t, (if c = '&' then matched else [c]) = [c] := fun c hc => by
    refine if_neg fun he : c = '&' => ?_
    exact h (he ▸ hc)
  rw [expand, List.flatMap_congr hid, List.flatMap_singleton']

/-- `s/^name=.*/name=value/`. -/
def script (name value : Text) : Text :=
  ['s', '/', '^'] ++ name ++ ['=', '.', '*', '/'] ++ name ++ ['='] ++ value ++ ['/']

theorem not_mem_of_isAlpha {c : Char} (hc : c.isAlpha = true) {l : List Char}
    (hl : l.any Char.isAlpha = false) : c ∉ l := fun h =>
  Bool.noConfusion (hl.symm.trans (List.any_eq_true.mpr ⟨c, h, hc⟩))

theorem parse_script {name value : Text} (hname : ∀ c ∈ name, c.isAlpha = true)
    (hvalue : ∀ c ∈ value, c ∉ ['/', '\n', '\\', '&']) : parse (script name value) =
      some ⟨'^' :: (name ++ ['='] ++ ['.', '*']), name ++ '=' :: value⟩ := by
  have hregex : ∀ c ∈ '^' :: (name ++ ['='] ++ ['.', '*']), c ∉ ['/', '\n', '\\'] := by
    intro c hc
    rcases List.mem_cons.mp hc with rfl | hc
    · decide
    rcases List.mem_append.mp hc with hc | hc
    · rcases List.mem_append.mp hc with hc | hc
      · exact not_mem_of_isAlpha (hname c hc) (by decide)
      · rw [List.mem_singleton.mp hc]
        decide
    · rcases List.mem_pair.mp hc with rfl | rfl
      · decide
      · decide
  have hreplacement : ∀ c ∈ name ++ '=' :: value, c ∉ ['/', '\n', '\\'] := by
    intro c hc
    rcases List.mem_append.mp hc with hc | hc
    · exact not_mem_of_isAlpha (hname c hc) (by decide)
    · rcases List.mem_cons.mp hc with rfl | hc
      · decide
      · exact fun h => hvalue c hc (List.mem_append_left ['&'] h)
  have hscript : script name value = 's' :: '/' :: (('^' :: (name ++ ['='] ++ ['.', '*'])) ++
      '/' :: ((name ++ '=' :: value) ++ '/' :: [])) := by
    simp only [script, List.append_assoc, List.cons_append, List.nil_append]
  have hparse : ∀ t : Text, parse ('s' :: '/' :: t) = (cut t).bind fun x => (cut x.2).bind fun y =>
      if y.2 = [] then some ⟨x.1, y.1⟩ else none := fun _ => rfl
  rw [hscript, hparse, cut_append hregex, Option.bind_some, cut_append hreplacement, Option.bind_some,
    if_pos rfl]

/-- The script assigns the value to the name. -/
theorem sed_assign {name value : Text} (hname : ∀ c ∈ name, c.isAlpha = true)
    (hvalue : ∀ c ∈ value, c ∉ ['/', '\n', '\\', '&']) (lines : List Text) :
    sed (script name value) lines = some (lines.map (assign (single name value))) := by
  have heq : '=' ∉ name := fun h => Bool.noConfusion (hname '=' h)
  have hspecial : ∀ c ∈ name ++ ['='], c ∉ ['.', '*', '[', ']', '\\', '^', '$'] := by
    intro c hc
    rcases List.mem_append.mp hc with hc | hc
    · exact not_mem_of_isAlpha (hname c hc) (by decide)
    · rw [List.mem_singleton.mp hc]
      decide
  have hplain : ∀ d ∈ ['\\', '&'], d ∉ name ++ '=' :: value := by
    intro d hd hc
    rcases List.mem_append.mp hc with hc | hc
    · exact not_mem_of_isAlpha (hname d hc) (by decide) hd
    · rcases List.mem_cons.mp hc with rfl | hc
      · exact absurd hd (by decide)
      · exact hvalue d hc (List.mem_append_right ['/', '\n'] hd)
  have hline : ∀ l : Text, (if (name ++ ['=']) <+: l then expand l (name ++ '=' :: value) else l) =
      assign (single name value) l := by
    intro l
    by_cases hl : (name ++ ['=']) <+: l
    · have hkey := (key_eq_some_iff_begins heq).mpr hl
      rw [if_pos hl, expand_plain (hplain '&' (by decide)), assign_of_some hkey (if_pos rfl)]
    · rw [if_neg hl]
      cases hk : key l with
      | none => rw [assign_of_no_key hk]
      | some k =>
        have hne : k ≠ name := fun h => hl ((key_eq_some_iff_begins heq).mp (h ▸ hk))
        rw [assign_of_none hk (if_neg hne)]
  rw [sed, parse_script hname hvalue, Option.bind_some, anchored_text hspecial, Option.bind_some,
    if_neg (hplain '\\' (by decide))]
  exact congrArg some (List.map_congr_left fun l _ => hline l)

end Sed
end Longan
