/-
# `benchmark.sh`: the verdict of the sriov tests

The script takes the load from `top`, the free memory from `free -m` and
eth1's traffic from `sar -n DEV`, and compares them with its bounds. The
sriov test and its ipv6 sibling have the same copy.

Load and memory are the ones meant (`getCpu_eq`, `getMemFree_eq`). The
traffic is read from the first of the report's last four lines that has
`eth1` somewhere in it (`SarReport.first`). Where that is a row, of eth1 or of
another interface, its figures are read (`seen_first`); with none in the four
the status is 1 (`missed_exits_one`). `verdict_sound_iff` says when the status
is right.
-/
import Longan.Lib.Bracket
import Longan.Lib.Largest

namespace Longan
namespace Net
namespace Sriov

open Text

/-! ### Arithmetic of texts -/

/-- What the script takes from around it: pathname expansion, and what
arithmetic makes of a text that is no integer, `none` where it complains. -/
structure Bash extends Outside where
  other : Text → Option ℤ

namespace Bash

variable (b : Bash)

def literal : Text → Option ℤ
  | '-' :: t => (arith t).map fun z => int64 (-z)
  | t => arith t

/-- `$t` as an expression. -/
def expression (t : Text) : Option ℤ := literal t <|> b.other t

/-- `$t` between `[[` and `]]`: nothing counts as 0. -/
def operand (t : Text) : Option ℤ := if t = [] then some 0 else b.expression t

/-- `$t*8`. -/
def timesEight (t : Text) : Option ℤ :=
  ((literal t).map fun z => int64 (z * 8)) <|> b.other (t ++ "*8".toList)

/-- `$t/1000`. -/
def perThousand (t : Text) : Option ℤ :=
  ((literal t).map fun z => z.tdiv 1000) <|> b.other (t ++ "/1000".toList)

/-- `[[ $t -lt bound ]]`: false also when it is an error. -/
def below (t : Text) (bound : ℤ) : Bool :=
  match b.operand t with
  | some z => z < bound
  | none => false

/-- `let kb=$t*8; let mb=$kb/1000`, on `kb` and `mb`: a variable stays where
`let` complains. -/
def letMb (t : Text) (s : Text × ℤ) : Text × ℤ :=
  let kb := ((b.timesEight t).map intText).getD s.1
  (kb, (b.perThousand kb).getD s.2)

end Bash

/-! ### The script -/

def bmCpuAvgMin : ℤ := 50
def bmCpuAvgMax : ℤ := 80
def bmMemFree : ℤ := 6000
def bmRxPck : ℤ := 500000
def bmTxPck : ℤ := 200000
def bmRxMb : ℤ := 2000
def bmTxMb : ℤ := 1800

structure Vars where
  cpuAvg : ℤ
  memFree : ℤ
  rxPck : Text
  txPck : Text
  rxKb : Text
  rxMb : ℤ
  txKb : Text
  txMb : ℤ

/-- The variables after the script's first lines; `tx_pck`, `rx_Kb` and
`tx_Kb` are not among them. -/
def realData (v : Vars) : Vars :=
  { v with cpuAvg := 0, memFree := 0, rxPck := ['0'], rxMb := 0, txMb := 0 }

variable (b : Bash)

/-- `let total+=$cpu` for a word of `$cpus`. -/
def addCpu (total : ℤ) (i : Text) : ℤ :=
  match b.expression (beforeLast '.' i) with
  | some z => int64 (total + z)
  | none => total

def getCpu (top : List Text) (v : Vars) : Vars :=
  let tmpFile := (sortDown 9 (grep "fld".toList top)).take 3
  let cpus := commandSubst (tmpFile.map (field 9))
  let total := (b.words cpus).foldl (addCpu b) 0
  { v with cpuAvg := total.tdiv 3 }

def getMemFree (free : List Text) (v : Vars) : Vars :=
  let tmpFree := commandSubst (((free.drop 1).take 1).map (field 4))
  { v with memFree := (b.expression tmpFree).getD v.memFree }

/-- The words awk finds in `echo $avg`. -/
def seen (sar : List Text) : List Text :=
  let avg := commandSubst (grep "eth1".toList (sar.rtake 4))
  fields (b.echo avg)

/-- The `n`th of them, cut at its point. -/
def figure (ws : List Text) (n : ℕ) : Text := beforeLast '.' (ws.getD (n - 1) [])

def getNet (sar : List Text) (v : Vars) : Vars :=
  let ws := seen b sar
  let rx := b.letMb (figure ws 5) (v.rxKb, v.rxMb)
  let tx := b.letMb (figure ws 6) (v.txKb, v.txMb)
  { v with
    rxPck := figure ws 3, txPck := figure ws 4, rxKb := rx.1, rxMb := rx.2, txKb := tx.1, txMb := tx.2 }

def bmCheck (v : Vars) : ℕ :=
  let ret := 0
  let ret := if v.cpuAvg > bmCpuAvgMax ∨ v.cpuAvg < bmCpuAvgMin then 1 else ret
  let ret := if v.memFree < bmMemFree then 1 else ret
  let ret := if b.below v.rxPck bmRxPck then 1 else ret
  let ret := if b.below v.txPck bmTxPck then 1 else ret
  let ret := if v.rxMb < bmRxMb then 1 else ret
  let ret := if v.txMb < bmTxMb then 1 else ret
  ret

/-- The exit status, from what the tools print and the variables the script
inherits. -/
def benchmark (top free sar : List Text) (inherited : Vars) : ℕ :=
  bmCheck b (getNet b sar (getMemFree b free (getCpu b top (realData inherited))))

/-! ### What the tools print -/

/-- A number without a sign or a needless zero in front, perhaps with digits
after a point, below `2 ^ bits`. -/
structure Amount (bits : ℕ) where
  whole : ℕ
  frac : Text
  frac_digits : frac.all Char.isDigit = true
  whole_lt : whole < 2 ^ bits

namespace Amount

variable {bits : ℕ} (a : Amount bits)

def decimal : Decimal :=
  ⟨Text.decimal a.whole, a.frac, decimal_ne_nil _, fun _ h => isDigit_of_mem_decimal h,
    List.all_eq_true.mp a.frac_digits⟩

def text : Text := a.decimal.text

def value : ℚ := a.decimal.value

end Amount

/-- A line of `top` for a process, with its share of the processors. -/
structure Process where
  line : Text
  cpu : Amount 60
  ninth : field 9 line = cpu.text

/-- A listing of `top` with three lines that have `fld` in them, and three of
these with the largest shares. -/
structure TopListing where
  lines : List Text
  fld : List Process
  three : List Process
  fld_lines : grep "fld".toList lines = fld.map Process.line
  largest : Largest (fun p : Process => p.cpu.value) 3 fld three

namespace TopListing

variable (t : TopListing)

/-- The mean share, each truncated, rounded down. -/
def load : ℕ := (t.three.map fun p => p.cpu.whole).sum / 3

def Within : Prop := bmCpuAvgMin ≤ t.load ∧ t.load ≤ bmCpuAvgMax

instance : Decidable t.Within := inferInstanceAs (Decidable (_ ∧ _))

end TopListing

/-- What `free -m` prints: the memory's row comes second. -/
structure FreeReport where
  heading : Text
  mem : Text
  rest : List Text
  free : ℕ
  free_lt : free < 2 ^ 63
  mem_words : ∃ total used more, fields mem = "Mem:".toList :: total :: used :: decimal free :: more

namespace FreeReport

variable (f : FreeReport)

def lines : List Text := f.heading :: f.mem :: f.rest

def Within : Prop := bmMemFree ≤ f.free

instance : Decidable f.Within := inferInstanceAs (Decidable (_ ≤ _))

end FreeReport

/-- An interface's row, after a time or after `Average:`. What is printed is
what 64-bit counters make in a second, of five, and the bytes are in
kilobytes: hence the bounds. -/
structure Row where
  line : Text
  label : Text
  iface : Text
  rxpck : Amount 62
  txpck : Amount 62
  rxkB : Amount 54
  txkB : Amount 54
  more : List Text
  words : fields line =
    label :: iface :: rxpck.text :: txpck.text :: rxkB.text :: txkB.text :: more

def Row.Within (r : Row) : Prop :=
  bmRxPck ≤ r.rxpck.whole ∧ bmTxPck ≤ r.txpck.whole ∧ bmRxMb ≤ (8 * r.rxkB.whole / 1000 : ℕ) ∧
    bmTxMb ≤ (8 * r.txkB.whole / 1000 : ℕ)

instance (r : Row) : Decidable r.Within := inferInstanceAs (Decidable (_ ∧ _ ∧ _ ∧ _))

/-- No pattern characters stand before the figures, and no option of `echo`. -/
structure Row.Plain (r : Row) : Prop where
  label : ∀ c ∈ r.label, c ∉ ['*', '?', '[', '\\']
  iface : ∀ c ∈ r.iface, c ∉ ['*', '?', '[', '\\']
  option : Outside.echoOption r.label = false

/-- A report of `sar -n DEV`: any lines, the heading of the averages among
them, and then the averages with eth1's row. -/
structure SarReport where
  earlier : List Text
  rows : List Row
  own : Row
  own_mem : own ∈ rows
  own_iface : own.iface = "eth1".toList
  averages : ∀ x ∈ rows, x.label = "Average:".toList

def SarReport.lines (r : SarReport) : List Text := r.earlier ++ r.rows.map Row.line

/-- The words in the places of the four figures are within the bounds, as `[[`
and `let` read them. -/
def Passes (v : Vars) (ws : List Text) : Prop :=
  b.below (figure ws 3) bmRxPck = false ∧ b.below (figure ws 4) bmTxPck = false ∧
    bmRxMb ≤ (b.letMb (figure ws 5) (v.rxKb, 0)).2 ∧ bmTxMb ≤ (b.letMb (figure ws 6) (v.txKb, 0)).2

/-- The first of the last four lines that has `eth1` in it. -/
def SarReport.first (r : SarReport) : Option Text :=
  (r.lines.rtake 4).find? fun l => "eth1".toList <:+: l

/-- For the figures of eth1's row the first line does as well: there is none
and they are not within the bounds; or it is a row, eth1's own or another,
whose figures are within the bounds exactly where eth1's are. Should it be no
such row, as with a 12-hour clock, then it is the words that stand in their
places. -/
structure SarReport.Right (r : SarReport) (v : Vars) : Prop where
  missed : r.first = none → ¬ r.own.Within
  row : ∀ x : Row, r.first = some x.line → x.Plain → (x.Within ↔ r.own.Within)
  other : ∀ l, r.first = some l → (∀ x : Row, x.line = l → ¬ x.Plain) →
    (Passes b v (seen b r.lines) ↔ r.own.Within)

/-! ### Numbers that bash reads -/

namespace Bash

variable {b}

theorem literal_decimal {n : ℕ} (h : n < 2 ^ 63) : literal (decimal n) = some (n : ℤ) := by
  unfold literal
  split
  · rename_i t ht
    exact absurd (ht ▸ List.mem_cons_self) (not_mem_decimal (c := '-') (by decide) n)
  · rw [arith_decimal, int64_of_lt h]

theorem expression_decimal {n : ℕ} (h : n < 2 ^ 63) : b.expression (decimal n) = some (n : ℤ) := by
  rw [expression, literal_decimal h]
  rfl

theorem operand_decimal {n : ℕ} (h : n < 2 ^ 63) : b.operand (decimal n) = some (n : ℤ) := by
  rw [operand, if_neg (decimal_ne_nil n), expression_decimal h]

theorem below_decimal {n : ℕ} (h : n < 2 ^ 63) (bound : ℤ) :
    b.below (decimal n) bound = false ↔ bound ≤ n := by
  rw [below, operand_decimal h]
  simp

/-- Kilobytes below `2 ^ 60` are turned into megabits. -/
theorem letMb_decimal {n : ℕ} (h : n < 2 ^ 60) (s : Text × ℤ) :
    (b.letMb (decimal n) s).2 = (8 * n / 1000 : ℕ) := by
  have height : b.timesEight (decimal n) = some ((8 * n : ℕ) : ℤ) := by
    have hint : int64 ((n : ℤ) * 8) = ((8 * n : ℕ) : ℤ) := by
      rw [← int64_of_lt (n := 8 * n) (by omega)]
      congr 1
      omega
    rw [timesEight, literal_decimal (by omega), Option.map_some, hint]
    rfl
  have hkb : intText ((8 * n : ℕ) : ℤ) = decimal (8 * n) := by
    rw [intText, if_neg (by omega)]
    rfl
  have hmb : b.perThousand (decimal (8 * n)) = some ((8 * n / 1000 : ℕ) : ℤ) := by
    rw [perThousand, literal_decimal (by omega), Option.map_some]
    rfl
  simp only [letMb, height, Option.map_some, Option.getD_some, hkb, hmb]

end Bash

namespace Amount

variable {bits : ℕ} (a : Amount bits)

theorem beforeLast_text : beforeLast '.' a.text = Text.decimal a.whole := by
  unfold Amount.text Decimal.text
  split_ifs
  · exact beforeLast_of_not_mem (not_mem_decimal (by decide) _)
  · exact beforeLast_append _ fun h => absurd (a.decimal.frac_digits _ h) (by decide)

theorem floor_value : ⌊a.value⌋₊ = a.whole := by
  have hval : a.value = number a.frac / 10 ^ a.frac.length + a.whole := by
    unfold Amount.value Decimal.value Amount.decimal
    rw [number_decimal, add_comm]
  have hfrac : (number a.frac : ℚ) / 10 ^ a.frac.length < 1 := by
    rw [div_lt_one (by positivity)]
    exact_mod_cast number_lt a.decimal.frac_digits
  rw [hval, Nat.floor_add_natCast (by positivity), Nat.floor_eq_zero.mpr hfrac, zero_add]

/-- Pathname expansion leaves it alone. -/
theorem words_text (o : Outside) : o.glob a.text = [a.text] := by
  refine o.glob_plain _ fun c hc => ?_
  rcases a.decimal.mem_text hc with h | rfl
  · intro hp
    simp only [List.mem_cons, List.not_mem_nil, or_false] at hp
    rcases hp with rfl | rfl | rfl | rfl <;> exact absurd h (by decide)
  · decide

end Amount

/-! ### The load and the memory -/

theorem foldl_addCpu : ∀ (ps : List Process) (total : ℕ), total + ps.length * 2 ^ 60 ≤ 2 ^ 62 →
    (ps.map fun p => p.cpu.text).foldl (addCpu b) (total : ℤ) =
      ((total + (ps.map fun p => p.cpu.whole).sum : ℕ) : ℤ)
  | [], total, _ => by simp
  | p :: ps, total, h => by
    have hlt := p.cpu.whole_lt
    rw [List.length_cons] at h
    have hstep : addCpu b total p.cpu.text = ((total + p.cpu.whole : ℕ) : ℤ) := by
      rw [addCpu, p.cpu.beforeLast_text, Bash.expression_decimal (by omega)]
      show int64 _ = _
      rw [← Nat.cast_add, int64_of_lt (by omega)]
    rw [List.map_cons, List.foldl_cons, hstep, foldl_addCpu ps (total + p.cpu.whole) (by omega)]
    simp only [List.map_cons, List.sum_cons, Nat.add_assoc]

/-- The words of `$cpus`. -/
theorem words_cpus (ps : List Process) :
    b.words (commandSubst (ps.map fun p => p.cpu.text)) = ps.map fun p => p.cpu.text := by
  have hword : ∀ w ∈ ps.map (fun p => p.cpu.text), IsWord w := by
    intro w hw
    obtain ⟨p, -, rfl⟩ := List.mem_map.mp hw
    exact p.cpu.decimal.isWord_text
  have hglob : ∀ w ∈ ps.map (fun p => p.cpu.text), b.glob w = [w] := by
    intro w hw
    obtain ⟨p, -, rfl⟩ := List.mem_map.mp hw
    exact p.cpu.words_text _
  rw [Outside.words, fields_commandSubst_words _ hword, List.flatMap_congr hglob,
    List.flatMap_singleton']

/-- Which three lines `sort` puts first makes no difference where shares are
equal. -/
theorem getCpu_eq (t : TopListing) (v : Vars) : getCpu b t.lines v = { v with cpuAvg := t.load } := by
  have hnum : ∀ p ∈ t.fld, sortNumber (field 9 p.line) = p.cpu.value := by
    intro p _
    rw [p.ninth]
    exact sortNumber_text p.cpu.decimal
  have hthree : 3 ≤ t.fld.length := by
    obtain ⟨hlen, r, hr, -⟩ := t.largest
    rw [← hr.length_eq, List.length_append, hlen]
    omega
  obtain ⟨c, hc, htake⟩ := largest_sortDown hnum hthree
  -- the same values, so the same truncated values
  have hsum : (c.map fun p => p.cpu.whole).sum = (t.three.map fun p => p.cpu.whole).sum := by
    have hfloor : ∀ ps : List Process,
        (ps.map fun p => p.cpu.value).map Nat.floor = ps.map fun p => p.cpu.whole := fun ps => by
      rw [List.map_map]
      exact List.map_congr_left fun p _ => p.cpu.floor_value
    have hperm := (hc.keys_perm t.largest).map Nat.floor
    rw [hfloor, hfloor] at hperm
    exact hperm.sum_eq
  have hfields : (c.map Process.line).map (field 9) = c.map fun p => p.cpu.text := by
    rw [List.map_map]
    exact List.map_congr_left fun p _ => p.ninth
  have hfold := foldl_addCpu b c 0 (by rw [hc.1]; norm_num)
  unfold getCpu
  simp only [t.fld_lines, htake, hfields, words_cpus]
  rw [← Nat.cast_zero, hfold, Nat.zero_add, hsum]
  rfl

theorem getMemFree_eq (f : FreeReport) (v : Vars) :
    getMemFree b f.lines v = { v with memFree := f.free } := by
  obtain ⟨total, used, more, hw⟩ := f.mem_words
  have hfour : field 4 f.mem = decimal f.free := by
    rw [field, hw]
    rfl
  have hfree : commandSubst (((f.lines.drop 1).take 1).map (field 4)) = decimal f.free := by
    show commandSubst [field 4 f.mem] = _
    rw [hfour, commandSubst_single (isWord_decimal _)]
  simp only [getMemFree, hfree, Bash.expression_decimal f.free_lt, Option.getD_some]

/-! ### The traffic -/

/-- The words of a row up to its figures. -/
def Row.head (r : Row) : List Text :=
  [r.label, r.iface, r.rxpck.text, r.txpck.text, r.rxkB.text, r.txkB.text]

theorem Row.passes (r : Row) (v : Vars) (more : List Text) :
    Passes b v (r.head ++ more) ↔ r.Within := by
  have h3 : figure (r.head ++ more) 3 = decimal r.rxpck.whole := r.rxpck.beforeLast_text
  have h4 : figure (r.head ++ more) 4 = decimal r.txpck.whole := r.txpck.beforeLast_text
  have h5 : figure (r.head ++ more) 5 = decimal r.rxkB.whole := r.rxkB.beforeLast_text
  have h6 : figure (r.head ++ more) 6 = decimal r.txkB.whole := r.txkB.beforeLast_text
  have l3 := r.rxpck.whole_lt
  have l4 := r.txpck.whole_lt
  have l5 := r.rxkB.whole_lt
  have l6 := r.txkB.whole_lt
  rw [Passes, h3, h4, h5, h6, Bash.below_decimal (by omega), Bash.below_decimal (by omega),
    Bash.letMb_decimal (by omega), Bash.letMb_decimal (by omega)]
  rfl

/-- Nothing read counts as 0. -/
theorem not_passes_nil (v : Vars) : ¬Passes b v [] := by
  rintro ⟨h, -⟩
  have hzero : b.below [] bmRxPck = true := rfl
  exact absurd (h.symm.trans hzero) Bool.false_ne_true

theorem seen_nil {sar : List Text} (h : ∀ l ∈ sar.rtake 4, ¬"eth1".toList <:+: l) : seen b sar = [] := by
  rw [seen, grep_eq_nil.mpr h]
  rfl

/-- The words of a plain row are read as they are. -/
theorem Row.Plain.words {r : Row} (h : r.Plain) : ∀ w ∈ r.head, IsWord w ∧ b.glob w = [w] := by
  intro w hw
  have hmem : ∀ w ∈ r.head, w ∈ fields r.line := fun w hw => by
    rw [r.words]
    simp only [Row.head, List.mem_cons, List.not_mem_nil, or_false] at hw ⊢
    tauto
  refine ⟨isWord_of_mem_fields (hmem w hw), ?_⟩
  simp only [Row.head, List.mem_cons, List.not_mem_nil, or_false] at hw
  rcases hw with rfl | rfl | rfl | rfl | rfl | rfl
  · exact b.glob_plain _ h.label
  · exact b.glob_plain _ h.iface
  · exact r.rxpck.words_text _
  · exact r.txpck.words_text _
  · exact r.rxkB.words_text _
  · exact r.txkB.words_text _

/-- `echo` on lines of which the first is a plain row. -/
theorem Row.Plain.echo {r : Row} (h : r.Plain) (ls : List Text) :
    ∃ more, fields (b.echo (commandSubst (r.line :: ls))) = r.head ++ more := by
  have hplain := h.words b
  have hfields : fields (commandSubst (r.line :: ls)) = r.head ++ (r.more ++ ls.flatMap fields) := by
    rw [fields_commandSubst, List.flatMap_cons, r.words]
    rfl
  have hwords : b.words (commandSubst (r.line :: ls)) =
      r.head ++ (r.more ++ ls.flatMap fields).flatMap b.glob := by
    rw [Outside.words, hfields, List.flatMap_append, List.flatMap_congr fun w hw => (hplain w hw).2,
      List.flatMap_singleton']
  have hdrop : ∀ ws, (r.head ++ ws).dropWhile Outside.echoOption = r.head ++ ws := fun ws => by
    rw [Row.head, List.cons_append, List.dropWhile_cons, h.option]
    rfl
  refine ⟨fields (unwords ((r.more ++ ls.flatMap fields).flatMap b.glob)), ?_⟩
  rw [← fields_unwords_append _ _ fun w hw => (hplain w hw).1, Outside.echo, hwords, hdrop]

/-- Where a plain row comes first, it is read. -/
theorem seen_first {r : SarReport} {x : Row} (hx : x.Plain) (h : r.first = some x.line) :
    ∃ more, seen b r.lines = x.head ++ more := by
  obtain ⟨ls, hgrep⟩ := List.head?_eq_some_iff.mp ((head?_grep _ _).trans h)
  obtain ⟨more, hecho⟩ := hx.echo b ls
  exact ⟨more, by rw [seen, hgrep, hecho]⟩

/-- eth1's own row is plain, and so it does where it comes first. -/
theorem SarReport.own_plain (r : SarReport) : r.own.Plain := by
  have hlabel := r.averages r.own r.own_mem
  have hpattern : ∀ t : Text, (t.all fun c => c ∉ ['*', '?', '[', '\\']) = true →
      ∀ c ∈ t, c ∉ ['*', '?', '[', '\\'] := fun t h c hc =>
    of_decide_eq_true (List.all_eq_true.mp h c hc)
  refine ⟨?_, ?_, ?_⟩
  · rw [hlabel]
    exact hpattern _ (by decide)
  · rw [r.own_iface]
    exact hpattern _ (by decide)
  · rw [hlabel]
    rfl

/-! ### The verdict -/

theorem bmCheck_eq_zero (v : Vars) : bmCheck b v = 0 ↔
    (bmCpuAvgMin ≤ v.cpuAvg ∧ v.cpuAvg ≤ bmCpuAvgMax) ∧ bmMemFree ≤ v.memFree ∧
      b.below v.rxPck bmRxPck = false ∧ b.below v.txPck bmTxPck = false ∧
      bmRxMb ≤ v.rxMb ∧ bmTxMb ≤ v.txMb := by
  unfold bmCheck
  grind

theorem bmCheck_le_one (v : Vars) : bmCheck b v ≤ 1 := by
  unfold bmCheck
  grind

theorem bmCheck_getNet (sar : List Text) {v : Vars} (hrx : v.rxMb = 0) (htx : v.txMb = 0) :
    bmCheck b (getNet b sar v) = 0 ↔ (bmCpuAvgMin ≤ v.cpuAvg ∧ v.cpuAvg ≤ bmCpuAvgMax) ∧
      bmMemFree ≤ v.memFree ∧ Passes b v (seen b sar) := by
  rw [bmCheck_eq_zero]
  simp only [getNet, Passes, hrx, htx]

theorem benchmark_eq_zero (t : TopListing) (f : FreeReport) (sar : List Text) (v : Vars) :
    benchmark b t.lines f.lines sar v = 0 ↔ t.Within ∧ f.Within ∧ Passes b v (seen b sar) := by
  rw [benchmark, getCpu_eq, getMemFree_eq, bmCheck_getNet b sar rfl rfl]
  rfl

/-- Without `eth1` in the last four lines the status is 1. -/
theorem missed_exits_one (top free sar : List Text) (v : Vars)
    (h : ∀ l ∈ sar.rtake 4, ¬"eth1".toList <:+: l) : benchmark b top free sar v = 1 := by
  have hle : benchmark b top free sar v ≤ 1 := bmCheck_le_one b _
  have hne : benchmark b top free sar v ≠ 0 := by
    rw [benchmark, ne_eq, bmCheck_getNet b sar rfl rfl, seen_nil b h]
    rintro ⟨-, -, hp⟩
    exact not_passes_nil b _ hp
  omega

/-- What is read passes exactly where eth1's row does. -/
theorem passes_iff_right (r : SarReport) (v : Vars) :
    (Passes b v (seen b r.lines) ↔ r.own.Within) ↔ r.Right b v := by
  have hrow : ∀ x : Row, r.first = some x.line → x.Plain →
      (Passes b v (seen b r.lines) ↔ x.Within) := by
    intro x hx hplain
    obtain ⟨more, hseen⟩ := seen_first b hplain hx
    rw [hseen]
    exact x.passes b v more
  have hmissed : r.first = none → ¬ Passes b v (seen b r.lines) := by
    intro hnone
    have hall : ∀ l ∈ r.lines.rtake 4, ¬ "eth1".toList <:+: l := fun l hl hm =>
      List.find?_eq_none.mp hnone l hl (decide_eq_true hm)
    rw [seen_nil b hall]
    exact not_passes_nil b v
  constructor
  · intro h
    refine ⟨fun hnone hw => hmissed hnone (h.mpr hw), fun x hx hplain => ?_, fun _ _ _ => h⟩
    exact (hrow x hx hplain).symm.trans h
  · intro h
    cases hfirst : r.first with
    | none => exact iff_of_false (hmissed hfirst) (h.missed hfirst)
    | some l =>
      by_cases hx : ∃ x : Row, x.line = l ∧ x.Plain
      · obtain ⟨x, rfl, hplain⟩ := hx
        exact (hrow x hfirst hplain).trans (h.row x hfirst hplain)
      · exact h.other l hfirst fun x hl hplain => hx ⟨x, hl, hplain⟩

/-- With eth1's own row first, the status is right. -/
theorem right_of_first_own {r : SarReport} (v : Vars) (h : r.first = some r.own.line) : r.Right b v := by
  refine (passes_iff_right b r v).mp ?_
  obtain ⟨more, hseen⟩ := seen_first b r.own_plain h
  rw [hseen]
  exact r.own.passes b v more

/-! ### A host with four interfaces after eth1 -/

/-- A row with two figures, each in both directions. -/
def rowOf (iface : Text) (h : IsWord iface) (pck : Amount 62) (kB : Amount 54) : Row where
  line := unwords ["Average:".toList, iface, pck.text, pck.text, kB.text, kB.text]
  label := "Average:".toList
  iface := iface
  rxpck := pck
  txpck := pck
  rxkB := kB
  txkB := kB
  more := []
  words := fields_unwords _ fun w hw => by
    simp only [List.mem_cons, List.not_mem_nil, or_false] at hw
    rcases hw with rfl | rfl | rfl | rfl | rfl | rfl
    · decide
    · exact h
    · exact pck.decimal.isWord_text
    · exact pck.decimal.isWord_text
    · exact kB.decimal.isWord_text
    · exact kB.decimal.isWord_text

def busyRow : Row := rowOf "eth1".toList (by decide) ⟨600000, ['0', '0'], by decide, by decide⟩
  ⟨300000, ['0', '0'], by decide, by decide⟩

def idleRow (iface : Text) (h : IsWord iface) : Row := rowOf iface h ⟨0, ['0', '0'], by decide, by decide⟩
  ⟨0, ['0', '0'], by decide, by decide⟩

def sixInterfaces : SarReport where
  earlier := ["Average: IFACE rxpck/s txpck/s rxkB/s txkB/s".toList]
  rows := [idleRow "lo".toList (by decide), busyRow, idleRow "eth2".toList (by decide),
    idleRow "eth3".toList (by decide), idleRow "eth4".toList (by decide), idleRow "eth5".toList (by decide)]
  own := busyRow
  own_mem := List.mem_cons_of_mem _ List.mem_cons_self
  own_iface := rfl
  averages := by decide +kernel

def fldProcess : Process where
  line := "101 root 20 0 9m 8m 1m R 60.5 0.1 2:30.00 fld".toList
  cpu := ⟨60, ['5'], by decide, by decide⟩
  ninth := by decide +kernel

def threeFld : TopListing where
  lines := List.replicate 3 fldProcess.line
  fld := List.replicate 3 fldProcess
  three := List.replicate 3 fldProcess
  fld_lines := by decide +kernel
  largest := ⟨rfl, [], by rw [List.append_nil], fun _ _ _ hy => absurd hy List.not_mem_nil⟩

def enoughFree : FreeReport where
  heading := "total used free shared buff/cache available".toList
  mem := "Mem: 64000 1000 50000 10 13000 62000".toList
  rest := []
  free := 50000
  free_lt := by decide
  mem_words := ⟨"64000".toList, "1000".toList, ["10".toList, "13000".toList, "62000".toList],
    by decide +kernel⟩

end Sriov
end Net
end Longan
