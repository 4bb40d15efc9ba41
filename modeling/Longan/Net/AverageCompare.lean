/-
# `average_compare`: the docker netperf verdict

`docker_performance_client.sh` writes a line `<type> <len> <sum>` to
`/data/result.txt` for each benchmark, under a line with the date for each
round. `average_compare` takes for every length and type the lines that hold
`"<type> <len> "`, averages their third fields with awk, cuts the printed
average at the point and compares it with the next entry of `target_value`;
one lower average makes the script leave with status 1.

The grep picks just the cell's lines (`grep_cell`) and the counter the cell's
target (`averageCompare_iff`). What is compared is not the mean but its print:
rounded to six digits, perhaps with an exponent, read as a 64-bit integer.
`Missed` and `FalseAlarm` are the means a cell is then judged wrongly on
(`lower_iff`), and `judges_right_iff` says when the verdict over all cells is
right all the same.
-/
import Mathlib.Tactic.FinCases
import Longan.Lib.Awk
import Longan.Lib.SixDigits

namespace Longan
namespace AverageCompare

open Text

/-! ### The cells -/

inductive NetperfType
  | tcpStream | udpStream | tcpCrr | tcpRr | udpRr
  deriving DecidableEq, Repr

def NetperfType.text : NetperfType → Text
  | .tcpStream => "TCP_STREAM".toList
  | .udpStream => "UDP_STREAM".toList
  | .tcpCrr => "TCP_CRR".toList
  | .tcpRr => "TCP_RR".toList
  | .udpRr => "UDP_RR".toList

inductive TestLen
  | len1 | len512 | len1024 | len61440
  deriving DecidableEq, Repr

def TestLen.text : TestLen → Text
  | .len1 => "1".toList
  | .len512 => "512".toList
  | .len1024 => "1024".toList
  | .len61440 => "61440".toList

def netperfType : List NetperfType := [.tcpStream, .udpStream, .tcpCrr, .tcpRr, .udpRr]

def testLen : List TestLen := [.len1, .len512, .len1024, .len61440]

def targetValue : List ℕ := [25, 10, 40000, 100000, 100000, 10000, 5834, 40000, 50000, 50000, 10000,
  10012, 35000, 50000, 51000, 15000, 9103, 5000, 10279, 4155]

/-! ### The function -/

/-- `"$ttt $len "`. -/
def cellPattern (t : NetperfType) (len : TestLen) : Text := t.text ++ ' ' :: (len.text ++ [' '])

/-- `average`: what awk prints of `sum/NR`, nothing when there is no line, cut
by `${average%.*}`. -/
def average (t : NetperfType) (len : TestLen) (file : List Text) : Text :=
  let ls := sort (grep (cellPattern t len) file)
  beforeLast '.' (if ls = [] then [] else awkPrint (awkMean 3 ls))

/-- `(( $average < $target ))`: false also when it is an error. -/
def lower (average : Text) (target : ℕ) : Bool :=
  match arith average with
  | some v => v < target
  | none => false

/-- The body of the inner loop, on `k` and `ret`. -/
def compareCell (file : List Text) (len : TestLen) (s : ℕ × ℕ) (t : NetperfType) : ℕ × ℕ :=
  let ret :=
    match targetValue[s.1]? with
    | some v => if lower (average t len file) v then 1 else s.2
    | none => s.2
  (s.1 + 1, ret)

/-- `average_compare`; `.error` is the status it exits with. -/
def averageCompare (file : List Text) : Except ℕ Unit :=
  if targetValue.length ≠ 20 then .error 1
  else
    let s := testLen.foldl (fun s len => netperfType.foldl (compareCell file len) s) (0, 0)
    if s.1 ≠ targetValue.length then .error 1
    else if s.2 ≠ 0 then .error 1
    else .ok ()

/-! ### The counter and the cells -/

/-- The cells in the order of the loops. -/
def cells : List (TestLen × NetperfType) :=
  testLen.flatMap fun len => netperfType.map fun t => (len, t)

/-- The entry of `target_value` that belongs to a cell. -/
def target (t : NetperfType) (len : TestLen) : ℕ :=
  targetValue.getD (netperfType.length * testLen.idxOf len + netperfType.idxOf t) 0

theorem mem_cells_target (t : NetperfType) (len : TestLen) :
    ((len, t), target t len) ∈ cells.zip targetValue := by
  cases t <;> cases len <;> decide

theorem target_of_mem : ∀ p ∈ cells.zip targetValue, p.2 = target p.1.2 p.1.1 := by decide

theorem target_bounds (t : NetperfType) (len : TestLen) : 10 ≤ target t len ∧ target t len ≤ 100000 := by
  cases t <;> cases len <;> decide

/-- The loops take the targets one after the other, and `ret` notes a lower
average. -/
theorem fold_cells (file : List Text) : ∀ (cs : List (TestLen × NetperfType)) (k r : ℕ),
    k + cs.length ≤ targetValue.length →
    cs.foldl (fun s c => compareCell file c.1 s c.2) (k, r) =
      (k + cs.length, if (cs.zip (targetValue.drop k)).any
        (fun p => lower (average p.1.2 p.1.1 file) p.2) then 1 else r)
  | [], _, _, _ => by simp
  | c :: cs, k, r, h => by
    have hk : k < targetValue.length := by
      rw [List.length_cons] at h
      omega
    rw [List.foldl_cons]
    have hc : compareCell file c.1 (k, r) c.2 =
        (k + 1, if lower (average c.2 c.1 file) targetValue[k] then 1 else r) := by
      simp [compareCell, List.getElem?_eq_getElem hk]
    rw [hc, fold_cells file cs (k + 1) _ (by rw [List.length_cons] at h; omega),
      List.drop_eq_getElem_cons hk, List.zip_cons_cons, List.any_cons, List.length_cons]
    congr 1
    · omega
    · cases lower (average c.2 c.1 file) targetValue[k]
      · rw [Bool.false_or]
        rfl
      · simp

/-- Status 1 is for a cell compared as lower than its own target. -/
theorem averageCompare_iff (file : List Text) :
    averageCompare file = .error 1 ↔ ∃ t len, lower (average t len file) (target t len) = true := by
  have hfold : testLen.foldl (fun s len => netperfType.foldl (compareCell file len) s) (0, 0) =
      cells.foldl (fun s c => compareCell file c.1 s c.2) (0, 0) := by
    rw [cells, List.foldl_flatMap]
    simp only [List.foldl_map]
  have hany : (cells.zip targetValue).any (fun p => lower (average p.1.2 p.1.1 file) p.2) = true ↔
      ∃ t len, lower (average t len file) (target t len) = true := by
    rw [List.any_eq_true]
    constructor
    · rintro ⟨p, hp, hl⟩
      rw [target_of_mem p hp] at hl
      exact ⟨_, _, hl⟩
    · rintro ⟨t, len, hl⟩
      exact ⟨_, mem_cells_target t len, hl⟩
  unfold averageCompare
  rw [if_neg (by decide), hfold, fold_cells file cells 0 0 (by decide), ← hany]
  have hlen : 0 + cells.length = targetValue.length := by decide
  simp only [hlen, ne_eq, not_true_eq_false, ↓reduceIte, List.drop_zero]
  cases (cells.zip targetValue).any (fun p => lower (average p.1.2 p.1.1 file) p.2) <;> simp

/-! ### The file -/

/-- What `date` prints. -/
abbrev DateText := {d : Text // '_' ∉ d}

/-- A line of `/data/result.txt`. -/
inductive ResultLine
  | separator (date : DateText)
  | sums (t : NetperfType) (len : TestLen) (sum : Decimal)

def ResultLine.text : ResultLine → Text
  | .separator d => "====================".toList ++ d.1 ++ "======================".toList
  | .sums t len s => unwords [t.text, len.text, s.text]

/-- The sums of a cell. -/
def cellSums (t : NetperfType) (len : TestLen) (ls : List ResultLine) : List ℚ :=
  ls.filterMap fun
    | .sums t' len' s => if t' = t ∧ len' = len then some s.value else none
    | .separator _ => none

def cellMean (t : NetperfType) (len : TestLen) (ls : List ResultLine) : ℚ :=
  (cellSums t len ls).sum / (cellSums t len ls).length

/-- A file with a line for every cell. -/
structure ResultFile where
  lines : List ResultLine
  complete : ∀ t len, cellSums t len lines ≠ []

def ResultFile.text (f : ResultFile) : List Text := f.lines.map ResultLine.text

def ResultFile.mean (f : ResultFile) (t : NetperfType) (len : TestLen) : ℚ := cellMean t len f.lines

/-! ### The grep picks the cell's lines -/

theorem type_isWord (t : NetperfType) : IsWord t.text := by cases t <;> decide

theorem len_isWord (len : TestLen) : IsWord len.text := by cases len <;> decide

theorem not_blank_of_isWord {w : Text} (h : IsWord w) : ' ' ∉ w := fun hm =>
  absurd (h.2 _ hm) (by decide)

/-- No type's name is the end of another's. -/
theorem type_suffix {t t' : NetperfType} (h : t.text <:+ t'.text) : t = t' := by
  revert h
  cases t <;> cases t' <;> decide

theorem len_text_injective {len len' : TestLen} (h : len.text = len'.text) : len = len' := by
  revert h
  cases len <;> cases len' <;> decide

theorem sums_text (t : NetperfType) (len : TestLen) (s : Decimal) :
    (ResultLine.sums t len s).text = t.text ++ ' ' :: (len.text ++ ' ' :: s.text) := rfl

theorem pattern_infix_sums (t t' : NetperfType) (len len' : TestLen) (s : Decimal) :
    cellPattern t len <:+: (ResultLine.sums t' len' s).text ↔ t' = t ∧ len' = len := by
  rw [cellPattern, sums_text]
  constructor
  · intro h
    obtain ⟨h1, h2⟩ := infix_two_words (not_blank_of_isWord (type_isWord t))
      (not_blank_of_isWord (len_isWord len)) (not_blank_of_isWord (type_isWord t'))
      (not_blank_of_isWord (len_isWord len')) (not_blank_of_isWord s.isWord_text) h
    exact ⟨(type_suffix h1).symm, (len_text_injective h2).symm⟩
  · rintro ⟨rfl, rfl⟩
    exact ⟨[], s.text, by simp only [List.nil_append, List.append_assoc, List.cons_append]⟩

/-- A separator has no `_`, and every pattern has one. -/
theorem not_pattern_infix_separator (t : NetperfType) (len : TestLen) (d : DateText) :
    ¬ cellPattern t len <:+: (ResultLine.separator d).text := by
  intro h
  have ht : '_' ∈ t.text := by cases t <;> decide
  have hm : '_' ∈ cellPattern t len := by
    rw [cellPattern]
    exact List.mem_append_left _ ht
  have hs : '_' ∈ "====================".toList ++ d.1 ++ "======================".toList :=
    h.subset hm
  rcases List.mem_append.mp hs with hs | hs
  · rcases List.mem_append.mp hs with hs | hs
    · exact absurd hs (by decide)
    · exact d.2 hs
  · exact absurd hs (by decide)

theorem awkNum_sums (t : NetperfType) (len : TestLen) (s : Decimal) :
    awkNum (field 3 (ResultLine.sums t len s).text) = s.value := by
  have hw : ∀ w ∈ [t.text, len.text, s.text], IsWord w := by
    simp only [List.forall_mem_cons, List.not_mem_nil, false_imp_iff, implies_true, and_true]
    exact ⟨type_isWord t, len_isWord len, s.isWord_text⟩
  have hf : field 3 (ResultLine.sums t len s).text = s.text := field_unwords _ hw 3
  rw [hf, awkNum_text]

/-- The third fields of the lines found are the cell's sums. -/
theorem grep_cell (t : NetperfType) (len : TestLen) : ∀ ls : List ResultLine,
    (grep (cellPattern t len) (ls.map ResultLine.text)).map (fun l => awkNum (field 3 l)) =
      cellSums t len ls
  | [] => rfl
  | .separator d :: ls => by
    have hn := not_pattern_infix_separator t len d
    have ih := grep_cell t len ls
    rw [grep] at ih ⊢
    rw [List.map_cons, List.filter_cons_of_neg (by simpa using hn), ih]
    rfl
  | .sums t' len' s :: ls => by
    have hi := pattern_infix_sums t t' len len' s
    have ih := grep_cell t len ls
    rw [grep] at ih ⊢
    by_cases hc : t' = t ∧ len' = len
    · rw [List.map_cons, List.filter_cons_of_pos (by simpa using hi.mpr hc), List.map_cons, ih,
        awkNum_sums]
      simp only [cellSums, List.filterMap_cons, if_pos hc]
    · rw [List.map_cons, List.filter_cons_of_neg (by simpa using mt hi.mp hc), ih]
      simp only [cellSums, List.filterMap_cons, if_neg hc]

/-- What is compared is the print of the cell's mean, cut at the point. -/
theorem average_cell (f : ResultFile) (t : NetperfType) (len : TestLen) :
    average t len f.text = beforeLast '.' (awkPrint (f.mean t len)) := by
  have hg := grep_cell t len f.lines
  have hp := sort_perm (grep (cellPattern t len) f.text)
  have hne : sort (grep (cellPattern t len) f.text) ≠ [] := by
    intro h0
    rw [h0] at hp
    have h1 := List.nil_perm.mp hp
    rw [ResultFile.text] at h1
    rw [h1] at hg
    exact f.complete t len hg.symm
  have hlen := congrArg List.length hg
  rw [List.length_map] at hlen
  simp only [average, if_neg hne]
  rw [awkMean_perm hp, awkMean, awkSum, ResultFile.text, hg, hlen]
  rfl

theorem cellSums_nonneg {t : NetperfType} {len : TestLen} {ls : List ResultLine} :
    ∀ q ∈ cellSums t len ls, 0 ≤ q := by
  intro q hq
  obtain ⟨l, -, hl⟩ := List.mem_filterMap.mp hq
  cases l with
  | separator d => cases hl
  | sums t' len' s =>
    simp only [Option.ite_none_right_eq_some, Option.some.injEq] at hl
    exact hl.2 ▸ s.value_nonneg

theorem mean_nonneg (f : ResultFile) (t : NetperfType) (len : TestLen) : 0 ≤ f.mean t len :=
  div_nonneg (List.sum_nonneg cellSums_nonneg) (Nat.cast_nonneg _)

/-! ### Means that are judged wrongly -/

/-- A lower mean that is not seen: it is rounded up to the target, or printed
as one digit and an exponent. -/
def Missed (m : ℚ) (t : ℕ) : Prop :=
  m < t ∧ m.den ≠ 1 ∧
    (t ≤ sixValue m ∨ ((sixDigits m).2 < -4 ∧ (sixDigits m).1 % 10 ^ 5 = 0))

/-- A mean that is not lower and taken for lower: an integer that wraps, or
one printed with an exponent, of which the first digit is read. -/
def FalseAlarm (m : ℚ) (t : ℕ) : Prop :=
  t ≤ m ∧ ((m.den = 1 ∧ int64 m.num < t) ∨
    (m.den ≠ 1 ∧ 6 ≤ (sixDigits m).2 ∧ (sixDigits m).1 % 10 ^ 5 ≠ 0))

theorem lower_of_arith {a : Text} {v : ℤ} (h : arith a = some v) (t : ℕ) :
    lower a t = true ↔ v < t := by
  rw [lower, h]
  simp

theorem not_lower_of_arith {a : Text} (h : arith a = none) (t : ℕ) : lower a t = false := by
  rw [lower, h]

/-- Without an exponent the rounded mean is compared. -/
theorem lower_fixed {m : ℚ} (hm : 0 < m) (hd : m.den ≠ 1)
    (he : -4 ≤ (sixDigits m).2 ∧ (sixDigits m).2 < 6) (t : ℕ) :
    lower (beforeLast '.' (awkPrint m)) t = true ↔ sixValue m < t := by
  have hn := (sixDigits_bounds hm).2
  have hq : (sixDigits m).1 / 10 ^ (5 - (sixDigits m).2).toNat < 2 ^ 63 :=
    (Nat.div_le_self _ _).trans_lt (hn.trans (by norm_num))
  obtain ⟨d, hd5⟩ : ∃ d : ℕ, 5 - (sixDigits m).2 = d := Int.eq_ofNat_of_zero_le (by omega)
  have hv : sixValue m = (sixDigits m).1 / 10 ^ d := by
    rw [sixValue, show (sixDigits m).2 - 5 = -(d : ℤ) by omega, zpow_neg, zpow_natCast,
      div_eq_mul_inv]
  rw [awkPrint, if_neg hd, lower_of_arith (arith_cut_fixed he), int64_of_lt hq, hd5, hv,
    Int.toNat_natCast, Nat.cast_lt, Nat.div_lt_iff_lt_mul (by positivity),
    div_lt_iff₀ (by positivity)]
  exact_mod_cast Iff.rfl

/-- With an exponent the first digit is compared, if there is a point after it. -/
theorem lower_exponent {m : ℚ} (hm : 0 < m) (hd : m.den ≠ 1)
    (he : ¬ (-4 ≤ (sixDigits m).2 ∧ (sixDigits m).2 < 6)) {t : ℕ} (ht : 10 ≤ t) :
    lower (beforeLast '.' (awkPrint m)) t = true ↔ (sixDigits m).1 % 10 ^ 5 ≠ 0 := by
  have hn := (sixDigits_bounds hm).2
  rw [awkPrint, if_neg hd]
  have ha := arith_cut_exponent he
  split_ifs at ha with h0
  · rw [not_lower_of_arith ha]
    exact ⟨fun h => absurd h (by decide), fun h => absurd h0 h⟩
  · have hdig : (sixDigits m).1 / 10 ^ 5 < 10 := by omega
    rw [lower_of_arith ha, int64_of_lt (hdig.trans (by norm_num))]
    exact ⟨fun _ => h0, fun _ => by omega⟩

theorem lower_integral {m : ℚ} (hm : 0 ≤ m) (hd : m.den = 1) (t : ℕ) :
    lower (beforeLast '.' (awkPrint m)) t = true ↔ int64 m.num < t := by
  rw [lower_of_arith (arith_cut_integral hd), Int.toNat_of_nonneg (Rat.num_nonneg.mpr hm)]

/-- **One comparison.** A lower mean is seen unless it is `Missed`, and no
other is taken for one but a `FalseAlarm`. -/
theorem lower_iff {m : ℚ} (hm : 0 ≤ m) {t : ℕ} (ht : 10 ≤ t ∧ t ≤ 100000) :
    lower (beforeLast '.' (awkPrint m)) t = true ↔ (m < t ∧ ¬ Missed m t) ∨ FalseAlarm m t := by
  by_cases hd : m.den = 1
  · rw [lower_integral hm hd]
    rcases lt_or_ge m (t : ℚ) with hl | hl
    · -- an integer below the target does not wrap
      have hnum : m.num < t := by
        rw [← Rat.coe_int_num_of_den_eq_one hd] at hl
        exact_mod_cast hl
      obtain ⟨k, hk⟩ := Int.eq_ofNat_of_zero_le (Rat.num_nonneg.mpr hm)
      have h64 : int64 m.num < t := by
        rw [hk, int64_of_lt (by omega)]
        omega
      exact ⟨fun _ => .inl ⟨hl, fun h => h.2.1 hd⟩, fun _ => h64⟩
    · simp [FalseAlarm, hl, hd, not_lt.mpr hl]
  · have hpos : 0 < m := lt_of_le_of_ne hm fun h => hd (by rw [← h]; rfl)
    by_cases he : -4 ≤ (sixDigits m).2 ∧ (sixDigits m).2 < 6
    · rw [lower_fixed hpos hd he]
      rcases lt_or_ge m (t : ℚ) with hl | hl
      · simp [Missed, FalseAlarm, hl, hd, not_le.mpr hl, not_lt.mpr he.1]
      · have hs := le_sixValue hl he.2
        simp [FalseAlarm, hl, hd, not_lt.mpr hl, hs, not_le.mpr he.2]
    · rw [lower_exponent hpos hd he ht.1]
      rcases lt_or_ge (sixDigits m).2 0 with hneg | hge
      · obtain ⟨h1, h2⟩ := lt_one_of_exponent hpos hneg
        have h1t : (1 : ℚ) ≤ t := by exact_mod_cast (show 1 ≤ t by omega)
        have hlt : m < t := h1.trans_le h1t
        have hst : ¬ (t : ℚ) ≤ sixValue m := not_le.mpr (h2.trans_le h1t)
        have he4 : (sixDigits m).2 < -4 := by omega
        simp [Missed, FalseAlarm, hlt, hd, hst, he4, not_le.mpr hlt]
      · have h6 : 6 ≤ (sixDigits m).2 := by omega
        have hle : (t : ℚ) ≤ m := by
          refine le_trans ?_ (le_of_exponent hpos h6)
          exact_mod_cast ht.2
        simp [FalseAlarm, hle, hd, h6, not_lt.mpr hle]

/-! ### The verdict -/

/-- A cell whose mean is lower than its target. -/
def ResultFile.Low (f : ResultFile) (t : NetperfType) (len : TestLen) : Prop :=
  f.mean t len < target t len

/-- **When the verdict is right.** Status 1 is for a cell with a lower mean
exactly when some lower mean is not missed, or there are missed ones just when
there are false alarms. -/
theorem judges_right_iff (f : ResultFile) :
    (averageCompare f.text = .error 1 ↔ ∃ t len, f.Low t len) ↔
      (∃ t len, f.Low t len ∧ ¬ Missed (f.mean t len) (target t len)) ∨
      ((∃ t len, Missed (f.mean t len) (target t len)) ↔
        ∃ t len, FalseAlarm (f.mean t len) (target t len)) := by
  have hx : averageCompare f.text = .error 1 ↔
      (∃ t len, f.Low t len ∧ ¬ Missed (f.mean t len) (target t len)) ∨
        ∃ t len, FalseAlarm (f.mean t len) (target t len) := by
    rw [averageCompare_iff]
    simp only [average_cell, lower_iff (mean_nonneg f _ _) (target_bounds _ _), exists_or]
    exact Iff.rfl
  have hlow : (∃ t len, f.Low t len) ↔
      (∃ t len, f.Low t len ∧ ¬ Missed (f.mean t len) (target t len)) ∨
        ∃ t len, Missed (f.mean t len) (target t len) := by
    constructor
    · rintro ⟨t, len, hl⟩
      by_cases hm : Missed (f.mean t len) (target t len)
      · exact .inr ⟨t, len, hm⟩
      · exact .inl ⟨t, len, hl, hm⟩
    · rintro (⟨t, len, hl, -⟩ | ⟨t, len, hm⟩)
      · exact ⟨t, len, hl⟩
      · exact ⟨t, len, hm.1⟩
  rw [hx, hlow]
  by_cases hs : ∃ t len, f.Low t len ∧ ¬ Missed (f.mean t len) (target t len)
  · simp [hs]
  · simp only [hs, false_or]
    exact Iff.comm

/-- A sum with two digits after the point. -/
def decimalSum (n c : ℕ) : Decimal where
  whole := decimal n
  frac := if c = 0 then [] else pad 2 c
  whole_ne := decimal_ne_nil n
  whole_digits _ h := isDigit_of_mem_decimal h
  frac_digits x h := by
    split_ifs at h
    · cases h
    · by_contra hx
      exact not_mem_pad (Bool.eq_false_iff.mpr hx) 2 c h

/-- Every cell at its target, but `TCP_RR 1` at 99999.96 for 100000. -/
def roundedUp : ResultFile where
  lines := cells.map fun c =>
    if c = (.len1, .tcpRr) then .sums c.2 c.1 (decimalSum 99999 96)
    else .sums c.2 c.1 (decimalSum (target c.2 c.1) 0)
  complete t len := by cases t <;> cases len <;> decide

/-- awk prints 100000 for that cell: status 0. -/
theorem rounded_up_missed : ¬ ∀ f : ResultFile,
    averageCompare f.text = .error 1 ↔ ∃ t len, f.Low t len := by
  intro h
  have hok : averageCompare roundedUp.text = .ok () := by decide +kernel
  have hlow : roundedUp.Low .tcpRr .len1 := by
    have hm : roundedUp.mean .tcpRr .len1 < (target .tcpRr .len1 : ℕ) := by decide +kernel
    exact hm
  have := (h roundedUp).mpr ⟨_, _, hlow⟩
  rw [hok] at this
  cases this

end AverageCompare
end Longan
