/-
# fsx: the file of operations

`logdump` writes each entry of the log as a line of words, and `--replay-ops`
reads such a file with `read_op`. What was written is read back, entry by
entry, as far as the entries have as many arguments as `read_op` expects of
their operation; the first that has not is a parse error
(`readOps_opsFile`).

The log's dump for the eye is left out, and so is the test that puts the `*`
behind an operation that hit the bad offset: it is any function of the entry.
-/
import Longan.Lib.Hex
import Longan.Lib.Ring
import Longan.Fsx.Ops

namespace Longan
namespace Fsx

open Text

/-- `op_names`. -/
def Op.name : Op → Text
  | .read => "read".toList
  | .write => "write".toList
  | .mapread => "mapread".toList
  | .mapwrite => "mapwrite".toList
  | .truncate => "truncate".toList
  | .fallocate => "fallocate".toList
  | .punchHole => "punch_hole".toList
  | .zeroRange => "zero_range".toList
  | .collapseRange => "collapse_range".toList
  | .insertRange => "insert_range".toList
  | .cloneRange => "clone_range".toList
  | .dedupeRange => "dedupe_range".toList
  | .copyRange => "copy_range".toList
  | .fsync => "fsync".toList

def ops : List Op :=
  [.read, .write, .mapread, .mapwrite, .truncate, .fallocate, .punchHole, .zeroRange,
    .collapseRange, .insertRange, .cloneRange, .dedupeRange, .copyRange, .fsync]

def opCode (name : Text) : Option Op := ops.find? fun op => op.name == name

def opArgsCount : Op → ℕ
  | .cloneRange => 4
  | .dedupeRange => 4
  | .copyRange => 4
  | _ => 3

/-! ### Writing -/

def onlyWord (b : Bool) (w : String) : List Text := if b then [w.toList] else []

/-- The words after the arguments. -/
def flagWords (star : Bool) (flags : Flags) : List Text :=
  onlyWord flags.keepSize "keep_size" ++ onlyWord flags.closeOpen "close_open" ++ onlyWord star "*"

def opWords (star : Bool) (e : LogEntry) : List Text :=
  onlyWord e.flags.skipped "skip" ++ e.operation.name :: (e.args.map hex ++ flagWords star e.flags)

def opsFile (star : LogEntry → Bool) (es : List LogEntry) : Text :=
  es.flatMap fun e => unwords (opWords (star e) e) ++ ['\n']

/-- The entries as `logdump` goes through them: none for a negative count. -/
def World.entries {φ : Type} (w : World φ) : List LogEntry :=
  Ring.oldestFirst logSize w.oplog w.logptr w.logcount.toNat

/-! ### Reading -/

/-- `fgets` into a buffer with room for `n` characters. -/
def fgets : ℕ → Text → Text × Text
  | 0, t => ([], t)
  | _ + 1, [] => ([], [])
  | n + 1, c :: cs => if c = '\n' then ([c], cs) else (c :: (fgets n cs).1, (fgets n cs).2)

/-- The words of the next line that is not empty and no comment. -/
def nextLine : ℕ → Text → Option (List Text × Text)
  | 0, _ => none
  | fuel + 1, t =>
    if t = [] then none
    else
      match fields (fgets 255 t).1 with
      | [] => nextLine fuel (fgets 255 t).2
      | w :: ws =>
        if w.head? = some '#' then nextLine fuel (fgets 255 t).2
        else some (w :: ws, (fgets 255 t).2)

def readArgs : ℕ → List Text → Option (List ℕ × List Text)
  | 0, ws => some ([], ws)
  | _ + 1, [] => none
  | n + 1, w :: ws => (strtoul w).bind fun a => (readArgs n ws).map fun r => (word a :: r.1, r.2)

def readFlags (flags : Flags) : List Text → Option Flags
  | [] => some flags
  | w :: ws =>
    if w = "keep_size".toList then readFlags { flags with keepSize := true } ws
    else if w = "close_open".toList then readFlags { flags with closeOpen := true } ws
    else if w = "*".toList then readFlags flags ws
    else none

/-- An operation with its arguments and flags. -/
def parseOp (skipped : Bool) : List Text → Option LogEntry
  | [] => none
  | name :: ws =>
    (opCode name).bind fun op => (readArgs (opArgsCount op) ws).bind fun r =>
      (readFlags ⟨skipped, false, false⟩ r.2).map fun flags => ⟨op, r.1, flags⟩

def parseLine : List Text → Option LogEntry
  | [] => none
  | w :: ws => if w = "skip".toList then parseOp true ws else parseOp false (w :: ws)

/-- `read_op` until the end of the file (`true`) or a parse error. -/
def readOps : ℕ → Text → List LogEntry × Bool
  | 0, _ => ([], true)
  | fuel + 1, t =>
    match nextLine t.length t with
    | none => ([], true)
    | some (ws, rest) =>
      match parseLine ws with
      | none => ([], false)
      | some e => (e :: (readOps fuel rest).1, (readOps fuel rest).2)

/-! ### The round trip -/

/-- An entry of the log: up to four 32-bit words. -/
structure LogEntry.Fits (e : LogEntry) : Prop where
  count : e.args.length ≤ 4
  words : ∀ a ∈ e.args, a < 2 ^ 32

/-- As many arguments as `read_op` reads. -/
def LogEntry.sized (e : LogEntry) : Bool := e.args.length == opArgsCount e.operation

theorem isWord_name (op : Op) : IsWord op.name := by
  cases op <;> decide

theorem length_name (op : Op) : op.name.length ≤ 14 := by
  cases op <;> decide

theorem opCode_name (op : Op) : opCode op.name = some op := by
  cases op <;> decide

/-- No operation reads as the word in front of it, or as a comment. -/
theorem name_head (op : Op) : op.name ≠ "skip".toList ∧ op.name.head? ≠ some '#' := by
  cases op <;> decide

theorem mem_onlyWord {b : Bool} {s : String} {w : Text} (h : w ∈ onlyWord b s) : w = s.toList := by
  unfold onlyWord at h
  cases b with
  | true => simpa using h
  | false => simp at h

theorem mem_flagWords {star : Bool} {flags : Flags} {w : Text} (h : w ∈ flagWords star flags) :
    w = "keep_size".toList ∨ w = "close_open".toList ∨ w = "*".toList := by
  unfold flagWords at h
  rw [List.mem_append, List.mem_append] at h
  rcases h with (h | h) | h
  · exact Or.inl (mem_onlyWord h)
  · exact Or.inr (Or.inl (mem_onlyWord h))
  · exact Or.inr (Or.inr (mem_onlyWord h))

theorem isWord_opWords (star : Bool) (e : LogEntry) : ∀ w ∈ opWords star e, IsWord w := by
  intro w hw
  unfold opWords at hw
  rw [List.mem_append, List.mem_cons, List.mem_append] at hw
  rcases hw with hw | rfl | hw | hw
  · rw [mem_onlyWord hw]
    decide
  · exact isWord_name _
  · obtain ⟨a, -, rfl⟩ := List.mem_map.mp hw
    exact isWord_hex a
  · rcases mem_flagWords hw with rfl | rfl | rfl <;> decide

/-- A line of words is as long as the words, and a character for each. -/
theorem length_unwords : ∀ ws : List Text,
    (unwords ws).length ≤ (ws.map fun w => w.length + 1).sum
  | [] => Nat.zero_le _
  | [w] => by simp [unwords]
  | w :: v :: ws => by
    have ih := length_unwords (v :: ws)
    rw [unwords_cons (List.cons_ne_nil v ws), List.length_append, List.length_cons, List.map_cons,
      List.sum_cons]
    omega

theorem sum_onlyWord (b : Bool) (s : String) :
    ((onlyWord b s).map fun w => w.length + 1).sum ≤ s.toList.length + 1 := by
  unfold onlyWord
  cases b with
  | true => simp
  | false => simp

theorem sum_hex : ∀ as : List ℕ, (∀ a ∈ as, a < 2 ^ 32) →
    (as.map ((fun w : Text => w.length + 1) ∘ hex)).sum ≤ as.length * 11
  | [], _ => Nat.le_refl _
  | a :: as, h => by
    have ih := sum_hex as fun b hb => h b (List.mem_cons_of_mem _ hb)
    have ha := length_hex_le (h a List.mem_cons_self)
    rw [List.map_cons, List.sum_cons, List.length_cons]
    simp only [Function.comp] at ih ⊢
    omega

/-- A line fits in the buffer of `read_op`. -/
theorem length_opLine (star : Bool) {e : LogEntry} (h : e.Fits) :
    (unwords (opWords star e)).length < 255 := by
  refine Nat.lt_of_le_of_lt (length_unwords _) ?_
  unfold opWords flagWords
  simp only [List.map_append, List.map_cons, List.sum_append, List.sum_cons, List.map_map]
  have h1 := sum_onlyWord e.flags.skipped "skip"
  have h2 := sum_onlyWord e.flags.keepSize "keep_size"
  have h3 := sum_onlyWord e.flags.closeOpen "close_open"
  have h4 := sum_onlyWord star "*"
  have h5 := length_name e.operation
  have h6 : (e.args.map ((fun w : Text => w.length + 1) ∘ hex)).sum ≤ e.args.length * 11 :=
    sum_hex e.args h.words
  have h7 := h.count
  have e1 : "skip".toList.length = 4 := by decide
  have e2 : "keep_size".toList.length = 9 := by decide
  have e3 : "close_open".toList.length = 10 := by decide
  have e4 : "*".toList.length = 1 := by decide
  omega

theorem fgets_line : ∀ (n : ℕ) (u t : Text), '\n' ∉ u → u.length < n →
    fgets n (u ++ '\n' :: t) = (u ++ ['\n'], t)
  | 0, _, _, _, hn => absurd hn (Nat.not_lt_zero _)
  | n + 1, [], t, _, _ => by simp [fgets]
  | n + 1, c :: u, t, hu, hn => by
    rw [List.mem_cons, not_or] at hu
    rw [List.cons_append, fgets, if_neg (fun h => hu.1 h.symm),
      fgets_line n u t hu.2 (Nat.lt_of_succ_lt_succ hn)]
    rfl

theorem newline_notin_unwords : ∀ {ws : List Text}, (∀ w ∈ ws, IsWord w) → '\n' ∉ unwords ws
  | [], _ => List.not_mem_nil
  | w :: ws, h => by
    have hw : '\n' ∉ w := fun hc => by
      have := (h w List.mem_cons_self).2 _ hc
      exact absurd this (by decide)
    rcases eq_or_ne ws [] with rfl | hne
    · exact hw
    · rw [unwords_cons hne, List.mem_append, List.mem_cons, not_or, not_or]
      refine ⟨hw, by decide, ?_⟩
      exact newline_notin_unwords fun v hv => h v (List.mem_cons_of_mem _ hv)

theorem head_opWords (star : Bool) (e : LogEntry) :
    ∃ w ws, opWords star e = w :: ws ∧ w.head? ≠ some '#' := by
  unfold opWords onlyWord
  by_cases h : e.flags.skipped = true
  · rw [if_pos h]
    exact ⟨_, _, rfl, by decide⟩
  · rw [if_neg h]
    exact ⟨_, _, rfl, (name_head _).2⟩

/-- The first line of a file of operations. -/
theorem nextLine_opLine (star : Bool) {e : LogEntry} (h : e.Fits) (rest : Text) {fuel : ℕ}
    (hf : 0 < fuel) :
    nextLine fuel (unwords (opWords star e) ++ '\n' :: rest) = some (opWords star e, rest) := by
  obtain ⟨fuel, rfl⟩ := Nat.exists_eq_succ_of_ne_zero (Nat.ne_of_gt hf)
  have hwords := isWord_opWords star e
  have hfields : fields (unwords (opWords star e) ++ ['\n']) = opWords star e := by
    rw [fields_append_blank _ (by decide) [], fields_unwords _ hwords, fields_nil, List.append_nil]
  obtain ⟨w, ws, he, hhead⟩ := head_opWords star e
  rw [nextLine, if_neg (by simp),
    fgets_line 255 _ _ (newline_notin_unwords hwords) (length_opLine star h), hfields, he]
  simp only [if_neg hhead]

/-! #### The arguments -/

theorem readArgs_hex : ∀ (as : List ℕ) (ws : List Text), (∀ a ∈ as, a < 2 ^ 32) →
    readArgs as.length (as.map hex ++ ws) = some (as, ws)
  | [], _, _ => rfl
  | a :: as, ws, h => by
    have ha := h a List.mem_cons_self
    rw [List.length_cons, List.map_cons, List.cons_append, readArgs,
      strtoul_hex (Nat.lt_trans ha (by decide)),
      readArgs_hex as ws fun b hb => h b (List.mem_cons_of_mem _ hb), Option.bind_some,
      Option.map_some, word, Nat.mod_eq_of_lt ha]

/-- Too few arguments: the next word is no number. -/
theorem readArgs_short : ∀ (as : List ℕ) (ws : List Text) (n : ℕ), as.length < n →
    (∀ w ∈ ws, strtoul w = none) → readArgs n (as.map hex ++ ws) = none
  | _, _, 0, h, _ => absurd h (Nat.not_lt_zero _)
  | [], [], _ + 1, _, _ => rfl
  | [], w :: ws, n + 1, _, h => by
    rw [List.map_nil, List.nil_append, readArgs, h w List.mem_cons_self]
    rfl
  | a :: as, ws, n + 1, hn, h => by
    rw [List.map_cons, List.cons_append, readArgs,
      readArgs_short as ws n (Nat.lt_of_succ_lt_succ hn) h]
    cases strtoul (hex a) with
    | none => rfl
    | some _ => rfl

/-- Too many: one of them is taken for a flag. -/
theorem readArgs_long : ∀ (as : List ℕ) (ws : List Text) (n : ℕ), n < as.length →
    (∀ a ∈ as, a < 2 ^ 32) →
    ∃ bs, bs ≠ [] ∧ readArgs n (as.map hex ++ ws) = some (as.take n, bs.map hex ++ ws)
  | as, ws, 0, hn, _ => ⟨as, List.ne_nil_of_length_pos hn, rfl⟩
  | [], _, n + 1, hn, _ => absurd hn (Nat.not_lt_zero _)
  | a :: as, ws, n + 1, hn, h => by
    have ha := h a List.mem_cons_self
    obtain ⟨bs, hne, he⟩ := readArgs_long as ws n (Nat.lt_of_succ_lt_succ hn)
      fun b hb => h b (List.mem_cons_of_mem _ hb)
    refine ⟨bs, hne, ?_⟩
    rw [List.map_cons, List.cons_append, readArgs, strtoul_hex (Nat.lt_trans ha (by decide)), he,
      Option.bind_some, Option.map_some, word, Nat.mod_eq_of_lt ha]
    rfl

theorem readFlags_flagWords (star : Bool) (flags : Flags) :
    readFlags ⟨flags.skipped, false, false⟩ (flagWords star flags) = some flags := by
  obtain ⟨skipped, closeOpen, keepSize⟩ := flags
  cases closeOpen <;> cases keepSize <;> cases star <;> cases skipped <;> decide

theorem readFlags_hex (flags : Flags) (a : ℕ) (ws : List Text) :
    readFlags flags (hex a :: ws) = none := by
  rw [readFlags, if_neg (by simp [hex]), if_neg (by simp [hex]), if_neg (by simp [hex])]

theorem parseOp_sized (star : Bool) {e : LogEntry} (h : e.Fits) (hs : e.sized = true) :
    parseOp e.flags.skipped (e.operation.name :: (e.args.map hex ++ flagWords star e.flags)) =
      some e := by
  have hlen : e.args.length = opArgsCount e.operation := by simpa [LogEntry.sized] using hs
  rw [parseOp, opCode_name, Option.bind_some, ← hlen, readArgs_hex _ _ h.words, Option.bind_some,
    readFlags_flagWords]
  rfl

theorem parseOp_unsized (star skipped : Bool) {e : LogEntry} (h : e.Fits) (hs : e.sized = false) :
    parseOp skipped (e.operation.name :: (e.args.map hex ++ flagWords star e.flags)) = none := by
  have hlen : e.args.length ≠ opArgsCount e.operation := by simpa [LogEntry.sized] using hs
  rw [parseOp, opCode_name, Option.bind_some]
  rcases Nat.lt_or_gt_of_ne hlen with hlt | hgt
  · rw [readArgs_short _ _ _ hlt fun w hw => by
      rcases mem_flagWords hw with rfl | rfl | rfl <;> decide]
    rfl
  · obtain ⟨bs, hne, he⟩ := readArgs_long e.args (flagWords star e.flags) _ hgt h.words
    obtain ⟨b, bs, rfl⟩ := List.exists_cons_of_ne_nil hne
    rw [he, Option.bind_some, List.map_cons, List.cons_append, readFlags_hex]
    rfl

/-- A line is read as what was written, if it has the arguments for it. -/
theorem parseLine_opWords (star : Bool) {e : LogEntry} (h : e.Fits) :
    parseLine (opWords star e) = if e.sized then some e else none := by
  have hparse : parseLine (opWords star e) =
      parseOp e.flags.skipped (e.operation.name :: (e.args.map hex ++ flagWords star e.flags)) := by
    unfold opWords onlyWord
    cases e.flags.skipped with
    | true => rfl
    | false =>
      show (if _ then _ else _) = _
      rw [if_neg (name_head e.operation).1]
  rw [hparse]
  cases hs : e.sized with
  | true => exact parseOp_sized star h hs
  | false => exact parseOp_unsized star _ h hs

/-- **A file of operations is read back as it was written**, up to the first
entry that has not the arguments of its operation; there `read_op` gives up. -/
theorem readOps_opsFile (star : LogEntry → Bool) : ∀ (es : List LogEntry) (fuel : ℕ),
    (∀ e ∈ es, e.Fits) → es.length < fuel →
      readOps fuel (opsFile star es) = (es.takeWhile LogEntry.sized, es.all LogEntry.sized)
  | _, 0, _, hf => absurd hf (Nat.not_lt_zero _)
  | [], _ + 1, _, _ => rfl
  | e :: es, fuel + 1, h, hf => by
    have he := h e List.mem_cons_self
    have hfile : opsFile star (e :: es) =
        unwords (opWords (star e) e) ++ '\n' :: opsFile star es := by
      simp [opsFile]
    rw [readOps, hfile, nextLine_opLine (star e) he _ (by simp)]
    simp only
    rw [parseLine_opWords (star e) he]
    cases hs : e.sized with
    | false => simp [hs]
    | true =>
      rw [readOps_opsFile star es fuel (fun x hx => h x (List.mem_cons_of_mem _ hx))
        (Nat.lt_of_succ_lt_succ hf)]
      simp [hs]

end Fsx
end Longan
