/-
Object storage: a directory tree (`LocalStorage`) or a bucket (`S3Storage`).
Writes here are outside the database transaction: nothing rolls them back.
-/
import InvoiceOps.Exceptions
import InvoiceOps.Lib.FileTree
import InvoiceOps.Python

namespace InvoiceOps

inductive StorageBackend where
  | local
  | s3
  deriving DecidableEq

/-- Where the bytes of an object are. -/
inductive Location where
  | file (path : List String)
  | object (key : String)
  deriving DecidableEq

/-- One object written. -/
structure Write where
  key : String
  location : Location
  bytes : Bytes

structure Disk where
  tree : FileTree String Bytes
  bucket : String → Option Bytes
  /-- What was written, in order. No function reads this. -/
  writes : List Write

namespace Storage

/-- One component of a path being resolved: empty and `.` components are
dropped, `..` drops the one before it. -/
def enter (path : List String) (part : String) : List String :=
  if part = "" ∨ part = "." then path
  else if part = ".." then path.dropLast
  else path ++ [part]

/-- `(root / key).resolve()`; an absolute key starts at the root of the file
system. -/
def resolve (root : List String) (key : String) : List String :=
  ((key.toList.splitOn '/').map String.ofList).foldl enter
    (if key.toList.head? = some '/' then [] else root)

/-- `LocalStorage._path` -/
def path (py : Py) (root : List String) (key : String) : Except Exn (List String) :=
  if root <+: resolve root key then .ok (resolve root key)
  else .error (.valueError ("key escapes storage root: " ++ py.repr key))

end Storage

namespace Disk

/-- `path.parent.mkdir(parents=True, exist_ok=True)` -/
def mkdirs (path : List String) (d : Disk) : Except Exn Unit × Disk :=
  match d.tree.mkdirs path.dropLast with
  | none => (.error (.storageError "not a directory"), d)
  | some tree => (.ok (), { d with tree })

/-- `path.write_bytes(data)`, for the object `key`. -/
def writeBytes (key : String) (path : List String) (data : Bytes) (d : Disk) : Except Exn Unit × Disk :=
  match d.tree.write path data with
  | none => (.error (.storageError "cannot write"), d)
  | some tree => (.ok (), { d with tree, writes := d.writes ++ [⟨key, .file path, data⟩] })

/-- The bucket's `put_object`. -/
def putKey (key : String) (data : Bytes) (d : Disk) : Except Exn Unit × Disk :=
  (.ok (), { d with
    bucket := Function.update d.bucket key (some data)
    writes := d.writes ++ [⟨key, .object key, data⟩] })

/-- The bytes at a location. -/
def contents (d : Disk) : Location → Option Bytes
  | .file path => d.tree.read path
  | .object key => d.bucket key

/-- The objects are as they were. -/
def Kept (d d' : Disk) : Prop := d'.writes = d.writes ∧ ∀ l, d'.contents l = d.contents l

/-- One object was written, and no other changed. -/
def Wrote (p : Write) (d d' : Disk) : Prop :=
  d'.writes = d.writes ++ [p] ∧ ∀ l, d'.contents l = if l = p.location then some p.bytes else d.contents l

theorem Kept.refl (d : Disk) : Kept d d := ⟨rfl, fun _ => rfl⟩

theorem mkdirs_kept (path : List String) (d : Disk) : Kept d (mkdirs path d).2 := by
  unfold mkdirs
  split
  · exact .refl d
  · next tree h =>
    refine ⟨rfl, fun l => ?_⟩
    cases l with
    | file p => exact FileTree.read_mkdirs h p
    | object k => rfl

/-- A `write_bytes` that raises changes nothing. -/
theorem writeBytes_cases (key : String) (path : List String) (data : Bytes) (d : Disk) :
    (∃ e, (writeBytes key path data d).1 = .error e ∧ (writeBytes key path data d).2 = d) ∨
      ((writeBytes key path data d).1 = .ok () ∧
        Wrote ⟨key, .file path, data⟩ d (writeBytes key path data d).2) := by
  unfold writeBytes
  split
  · exact .inl ⟨_, rfl, rfl⟩
  · next tree h =>
    refine .inr ⟨rfl, rfl, fun l => ?_⟩
    cases l with
    | file p =>
      simp only [contents, Location.file.injEq]
      exact FileTree.read_write h p
    | object k => rfl

theorem putKey_wrote (key : String) (data : Bytes) (d : Disk) :
    Wrote ⟨key, .object key, data⟩ d (putKey key data d).2 := by
  refine ⟨rfl, fun l => ?_⟩
  cases l with
  | file p => rfl
  | object k => simp [putKey, contents, Function.update_apply]

end Disk

namespace Storage

/-- The location a key names. -/
def locate (py : Py) (backend : StorageBackend) (root : List String) (key : String) : Except Exn Location :=
  match backend with
  | .local => (path py root key).map .file
  | .s3 => .ok (.object key)

/-- `get_object` -/
def getObject (py : Py) (backend : StorageBackend) (root : List String) (key : String) (d : Disk) :
    Except Exn Bytes := do
  match d.contents (← locate py backend root key) with
  | some data => return data
  | none => throw (.storageError "no such object")

theorem getObject_eq_ok {py : Py} {backend : StorageBackend} {root : List String} {key : String} {d : Disk}
    {l : Location} {data : Bytes} (hl : locate py backend root key = .ok l) (hc : d.contents l = some data) :
    getObject py backend root key d = .ok data := by
  rw [getObject, hl]
  change (match d.contents l with | some data => pure data | none => throw _) = Except.ok data
  rw [hc]
  rfl

theorem isIllegalTransition_of_path {py : Py} {root : List String} {key : String} {e : Exn}
    (h : path py root key = .error e) : e.isIllegalTransition = false := by
  unfold path at h
  split at h <;> cases h
  rfl

theorem isIllegalTransition_of_getObject {py : Py} {backend : StorageBackend} {root : List String} {key : String}
    {d : Disk} {e : Exn} (h : getObject py backend root key d = .error e) : e.isIllegalTransition = false := by
  unfold getObject at h
  cases hl : locate py backend root key with
  | ok l =>
    rw [hl] at h
    change (match d.contents l with | some data => pure data | none => throw _) = Except.error e at h
    split at h <;> cases h
    rfl
  | error e' =>
    rw [hl] at h
    cases h
    cases backend with
    | «local» =>
      cases hp : path py root key with
      | ok p => rw [locate, hp] at hl; cases hl
      | error e' => rw [locate, hp] at hl; cases hl; exact isIllegalTransition_of_path hp
    | s3 => cases hl

end Storage

end InvoiceOps
