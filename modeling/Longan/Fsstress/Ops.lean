/-
# fsstress: what it does to its files

The operations that make, link, rename and remove files (`creat_f` to
`unlink_f`), each from the two random numbers it draws: which file it is about,
and which directory a new one is made in. An operation that works on what a
file contains chooses the file and makes its calls with the path of it
(`Op.other`). A `process` does any number of them one after the other.
-/
import Longan.Fsstress.Entries

namespace Longan
namespace Fsstress

section

variable {φ : Type}

/-- Calls on the file system, in a process. -/
def onFs {α : Type} (m : Run φ α) : Proc φ α := fun w =>
  match m w.fs with
  | .ok (a, s) => .ok (a, { w with fs := s })
  | .error (e, s) => .error (e, { w with fs := s })

/-- `FT_DIRm` -/
def ftDirm (ft : Ft) : Bool := decide (ft = .dir)

/-- `FT_NOTDIR` -/
def ftNotdir (ft : Ft) : Bool := decide (ft ≠ .dir)

variable (F : FileSystem φ) (namerand : ℕ)

/-- A new file of a type in a directory that `r` chooses, made by `make`. -/
def newFile (ft : Ft) (make : Pathname → Run φ Bool) (r : ℕ) : Proc φ Unit := do
  let fep ← getFent ftDirm r
  let fep := fep.map fun x => x.2.2
  match ← generateFname namerand fep ft with
  | none => pure ()
  | some (f, id) => do
    if ← onFs (make f) then addToFlist ft id (fep.map Fent.id) 0 else pure ()

/-- The type that `creat_f` takes. -/
def creatType (rtpct e1 : ℕ) : Ft :=
  if rtpct ≠ 0 then (if e1 % 100 > rtpct then .reg else .rtf) else .reg

def creatF (rtpct r e1 : ℕ) : Proc φ Unit :=
  newFile namerand (creatType rtpct e1) (creatPath F) r

def mkdirF (r : ℕ) : Proc φ Unit := newFile namerand .dir (mkdirPath F) r

def mknodF (r : ℕ) : Proc φ Unit := newFile namerand .dev (mknodPath F) r

/-- What the link contains: `x`, and a slash at each tenth place but the last. -/
def symlinkVal (len : ℕ) : Text :=
  (List.range len).map fun i => if 0 < i ∧ i % 10 = 0 ∧ i < len - 1 then '/' else 'x'

/-- `PATH_MAX` -/
def pathMax : ℕ := 4096

def symlinkF (r r2 : ℕ) : Proc φ Unit :=
  newFile namerand .sym (symlinkPath F (symlinkVal (r2 % pathMax))) r

def linkF (r r2 : ℕ) : Proc φ Unit := do
  match ← getFname namerand ftNotdir r with
  | none => pure ()
  | some (ft, _, src, f) => do
    let fep ← getFent ftDirm r2
    let fep := fep.map fun x => x.2.2
    match ← generateFname namerand fep ft with
    | none => pure ()
    | some (l, id) => do
      if ← onFs (linkPath F f l) then addToFlist ft id (fep.map Fent.id) src.xattrCounter
      else pure ()

/-- A file that `r` chooses is removed by `rm`. -/
def removeFile (which : Ft → Bool) (rm : Pathname → Run φ Bool) (r : ℕ) : Proc φ Unit := do
  match ← getFname namerand which r with
  | none => pure ()
  | some (ft, slot, _, f) => do
    if ← onFs (rm f) then delFromFlist ft slot else pure ()

def rmdirF (r : ℕ) : Proc φ Unit := removeFile namerand ftDirm (rmdirPath F) r

def unlinkF (r : ℕ) : Proc φ Unit := removeFile namerand ftNotdir (unlinkPath F) r

/-- An operation on what a file contains, or on what is known of it. -/
def otherF (which : Ft → Bool) (r : ℕ) : Proc φ Unit := do
  match ← getFname namerand which r with
  | none => pure ()
  | some (_, _, _, f) => do
    let _ ← onFs (onPath F .other f)
    pure ()

def setXattr (ft : Ft) (slot n : ℕ) : Proc φ Unit :=
  modify fun w => w.setFents ft ((w.fents ft).modify slot fun f => { f with xattrCounter := n })

/-- Whether one of two directories is in the other. -/
def related (ft : Ft) (fep dfep : Fent) : Proc φ Bool := do
  if ft = .dir then do
    if ← fentsAncestorCheck fep dfep then pure true else fentsAncestorCheck dfep fep
  else pure false

/-- `do_renameat2` with `RENAME_EXCHANGE`: two files of one type. -/
def exchangeF (r r2 : ℕ) : Proc φ Unit := do
  match ← getFname namerand (fun _ => true) r with
  | none => pure ()
  | some (ft, slot, fep, f) => do
    match ← getFname namerand (fun ft' => decide (ft' = ft)) r2 with
    | none => pure ()
    | some (_, slot', dfep, newf) => do
      if ← related ft fep dfep then pure ()
      else do
        if ← onFs (renamePath F .exchange f newf) then do
          onlyIf (ft = .dir) (fixParent fep.id dfep.id true)
          setXattr ft slot dfep.xattrCounter
          setXattr ft slot' fep.xattrCounter
        else pure ()

/-- `do_renameat2` with the other flags: a file gets a new name. -/
def moveF (mode : Mode) (r r2 : ℕ) : Proc φ Unit := do
  match ← getFname namerand (fun ft => mode ≠ .whiteout ∨ ft = .dev) r with
  | none => pure ()
  | some (ft, slot, fep, f) => do
    let dfep ← getFent ftDirm r2
    let dfep := dfep.map fun x => x.2.2
    match ← generateFname namerand dfep ft with
    | none => pure ()
    | some (newf, id) => do
      if ← onFs (renamePath F mode f newf) then do
        onlyIf (ft = .dir) (fixParent fep.id id false)
        if mode = .whiteout then setXattr ft slot 0 else delFromFlist ft slot
        addToFlist ft id (dfep.map Fent.id) fep.xattrCounter
      else pure ()

def doRenameat2 (mode : Mode) (r r2 : ℕ) : Proc φ Unit :=
  if mode = .exchange then exchangeF F namerand r r2 else moveF F namerand mode r r2

/-- An operation, with the random numbers it draws. -/
inductive Op
  | creat (rtpct r e1 : ℕ)
  | mkdir (r : ℕ)
  | mknod (r : ℕ)
  | symlink (r r2 : ℕ)
  | link (r r2 : ℕ)
  | rename (mode : Mode) (r r2 : ℕ)
  | rmdir (r : ℕ)
  | unlink (r : ℕ)
  | other (which : Ft → Bool) (r : ℕ)

def Op.run : Op → Proc φ Unit
  | .creat rtpct r e1 => creatF F namerand rtpct r e1
  | .mkdir r => mkdirF F namerand r
  | .mknod r => mknodF F namerand r
  | .symlink r r2 => symlinkF F namerand r r2
  | .link r r2 => linkF F namerand r r2
  | .rename mode r r2 => doRenameat2 F namerand mode r r2
  | .rmdir r => rmdirF F namerand r
  | .unlink r => unlinkF F namerand r
  | .other which r => otherF F namerand which r

/-- The operations of `doproc`, one after the other. -/
def process : List Op → Proc φ Unit
  | [] => pure ()
  | op :: ops => do
    op.run F namerand
    process ops

end

end Fsstress
end Longan
