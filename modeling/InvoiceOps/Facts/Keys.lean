/-
Where storage keys lead. An export key determines its location and is
determined by it; a document key leads below `raw/`, so never to an export;
and two document keys lead to one file only for one digest, or when both
file names are `..`.
-/
import InvoiceOps.Services.Export
import InvoiceOps.Services.Ingestion
import Mathlib.Data.List.TakeWhile

namespace InvoiceOps

/-! ## Components -/

/-- A component that is entered as it is. -/
def Plain (part : String) : Prop := part ≠ "" ∧ part ≠ "." ∧ part ≠ ".."

theorem Storage.enter_plain {path : List String} {part : String} (h : Plain part) :
    Storage.enter path part = path ++ [part] := by
  rw [Storage.enter, if_neg (not_or.mpr ⟨h.1, h.2.1⟩), if_neg h.2.2]

/-- A component longer than `..`. -/
theorem plain_of_length {part : String} (h : 2 < part.toList.length) : Plain part := by
  refine ⟨?_, ?_, ?_⟩ <;> rintro rfl <;> exact absurd h (by decide)

/-- A component without dots. -/
theorem plain_of_chars {part : String} (hne : part.toList ≠ []) (h : '.' ∉ part.toList) : Plain part := by
  refine ⟨?_, ?_, ?_⟩ <;> rintro rfl
  · exact hne rfl
  · exact h (by decide)
  · exact h (by decide)

theorem Storage.splitOn_append_cons {part : List Char} (h : '/' ∉ part) (rest : List Char) :
    (part ++ '/' :: rest).splitOn '/' = part :: rest.splitOn '/' :=
  List.splitOn_append_cons_self_of_not_mem h rest

/-! ## Hexadecimal text -/

theorem digitChar_mem (n : Nat) (h : n < 16) : Nat.digitChar n ∈ "0123456789abcdef".toList := by
  revert h n
  decide

theorem hexdigest_chars {bs : Bytes} {c : Char} (h : c ∈ (hexdigest bs).toList) : c ∈ "0123456789abcdef".toList := by
  rw [hexdigest, String.toList_ofList, List.mem_flatMap] at h
  obtain ⟨b, -, hc⟩ := h
  have hb : b.toNat < 256 := b.toNat_lt
  rcases List.mem_pair.mp hc with rfl | rfl
  · exact digitChar_mem _ (by omega)
  · exact digitChar_mem _ (by omega)

theorem hexdigest_length (bs : Bytes) : (hexdigest bs).toList.length = 2 * bs.length := by
  rw [hexdigest, String.toList_ofList]
  induction bs with
  | nil => rfl
  | cons b bs ih => simp [List.flatMap_cons] at ih ⊢; omega

theorem sha256Hex_length (data : Bytes) : (sha256Hex data).toList.length = 64 := by
  rw [sha256Hex, hexdigest_length, Sha256.digest_length]

/-! ## Uuids -/

theorem Uuid.hex_length (u : Uuid) : u.hex.length = 32 := by rw [Uuid.hex, List.length_map, u.length_eq]

theorem Uuid.str_toList (u : Uuid) : u.str.toList = u.hex.take 8 ++ '-' :: ((u.hex.drop 8).take 4 ++ '-' ::
    ((u.hex.drop 12).take 4 ++ '-' :: ((u.hex.drop 16).take 4 ++ '-' :: u.hex.drop 20))) := by
  rw [Uuid.str, String.toList_ofList]

theorem Uuid.hex_injective : Function.Injective Uuid.hex := by
  intro u v h
  have hinj : Function.Injective fun d : Fin 16 => Nat.digitChar d.val := by
    have : ∀ a b : Fin 16, Nat.digitChar a.val = Nat.digitChar b.val → a = b := by decide
    exact fun a b => this a b
  cases u
  cases v
  simpa [Uuid.hex] using List.map_injective_iff.mpr hinj h

/-- The groups of a uuid, without the dashes. -/
theorem groups_eq (cs : List Char) : cs.take 8 ++ ((cs.drop 8).take 4 ++ ((cs.drop 12).take 4 ++
    ((cs.drop 16).take 4 ++ cs.drop 20))) = cs := by
  have hgroup : ∀ n, (cs.drop n).take 4 ++ cs.drop (n + 4) = cs.drop n := fun n => by
    rw [← List.drop_drop, List.take_append_drop]
  rw [hgroup 16, hgroup 12, hgroup 8, List.take_append_drop]

/-- The text of a uuid determines it. -/
theorem Uuid.str_injective : Function.Injective Uuid.str := by
  intro u v h
  have hlen := u.hex_length
  have hlen' := v.hex_length
  have h := congrArg String.toList h
  rw [u.str_toList, v.str_toList] at h
  obtain ⟨h₁, h⟩ := List.append_inj h (by simp [hlen, hlen'])
  obtain ⟨h₂, h⟩ := List.append_inj (List.cons.inj h).2 (by simp [hlen, hlen'])
  obtain ⟨h₃, h⟩ := List.append_inj (List.cons.inj h).2 (by simp [hlen, hlen'])
  obtain ⟨h₄, h⟩ := List.append_inj (List.cons.inj h).2 (by simp [hlen, hlen'])
  apply Uuid.hex_injective
  rw [← groups_eq u.hex, ← groups_eq v.hex, h₁, h₂, h₃, h₄, (List.cons.inj h).2]

theorem Uuid.str_length (u : Uuid) : u.str.toList.length = 36 := by
  rw [u.str_toList]
  simp [u.hex_length]

theorem Uuid.str_chars {u : Uuid} {c : Char} (h : c ∈ u.str.toList) : c = '-' ∨ c ∈ "0123456789abcdef".toList := by
  have hhex : ∀ {c}, c ∈ u.hex → c ∈ "0123456789abcdef".toList := by
    intro c hc
    obtain ⟨d, -, rfl⟩ := List.mem_map.mp hc
    exact digitChar_mem _ d.isLt
  rw [u.str_toList] at h
  by_cases hdash : c = '-'
  · exact .inl hdash
  · refine .inr (hhex ?_)
    simp only [List.mem_append, List.mem_cons, hdash, false_or] at h
    rcases h with h | h | h | h | h
    · exact List.mem_of_mem_take h
    · exact List.mem_of_mem_drop (List.mem_of_mem_take h)
    · exact List.mem_of_mem_drop (List.mem_of_mem_take h)
    · exact List.mem_of_mem_drop (List.mem_of_mem_take h)
    · exact List.mem_of_mem_drop h

/-! ## Keys -/

theorem Storage.resolve_exportKey (root : List String) (i k : Uuid) :
    Storage.resolve root (exportKey i k) = root ++ ["exports", i.str, k.str ++ ".json"] := by
  have hslash : ∀ {u : Uuid}, '/' ∉ u.str.toList := fun h => by
    rcases Uuid.str_chars h with h | h <;> exact absurd h (by decide)
  have hkey : (exportKey i k).toList =
      "exports".toList ++ '/' :: (i.str.toList ++ '/' :: (k.str ++ ".json").toList) := by
    simp [exportKey, String.toList_append]
  have hjson : '/' ∉ (k.str ++ ".json").toList := by
    rw [String.toList_append, List.mem_append, not_or]
    exact ⟨hslash, by decide⟩
  have hexports : Plain "exports" := plain_of_length (by decide)
  have hi : Plain i.str := plain_of_length (by rw [i.str_length]; decide)
  have hk : Plain (k.str ++ ".json") := plain_of_length (by
    rw [String.toList_append, List.length_append, k.str_length]
    omega)
  rw [Storage.resolve, hkey, Storage.splitOn_append_cons (by decide), Storage.splitOn_append_cons hslash,
    List.splitOn_eq_singleton hjson, if_neg (by simp)]
  simp only [List.map_cons, List.map_nil, List.foldl_cons, List.foldl_nil, String.ofList_toList]
  rw [Storage.enter_plain hexports, Storage.enter_plain hi, Storage.enter_plain hk]
  simp

/-- The directory of digests that begin like `digest`. -/
def shard (digest : String) : String := String.ofList (digest.toList.take 2)

theorem baseName_chars {name : String} : '/' ∉ (baseName name).toList := by
  rw [baseName]
  split
  · decide
  · intro h
    rw [String.toList_ofList, List.mem_reverse] at h
    have := List.mem_takeWhile_imp h
    simp at this

theorem Storage.resolve_storageKey (root : List String) (data : Bytes) (name : String) :
    Storage.resolve root (storageKey (sha256Hex data) name) =
      Storage.enter (root ++ ["raw", shard (sha256Hex data), sha256Hex data]) (baseName name) := by
  have hchars : ∀ {c}, c ∈ (sha256Hex data).toList → c ∈ "0123456789abcdef".toList := hexdigest_chars
  have hshard : (shard (sha256Hex data)).toList = (sha256Hex data).toList.take 2 := by
    rw [shard, String.toList_ofList]
  have hkey : (storageKey (sha256Hex data) name).toList = "raw".toList ++ '/' ::
      ((shard (sha256Hex data)).toList ++ '/' :: ((sha256Hex data).toList ++ '/' :: (baseName name).toList)) := by
    simp [storageKey, shard, String.toList_append]
  have hslash : '/' ∉ (sha256Hex data).toList := fun h => absurd (hchars h) (by decide)
  have hslash' : '/' ∉ (shard (sha256Hex data)).toList := fun h => by
    rw [hshard] at h
    exact hslash (List.mem_of_mem_take h)
  have hraw : Plain "raw" := plain_of_length (by decide)
  have hdigest : Plain (sha256Hex data) := plain_of_length (by rw [sha256Hex_length]; decide)
  have hdd : Plain (shard (sha256Hex data)) := by
    refine plain_of_chars (fun h => ?_) fun h => ?_
    · have hlen := congrArg List.length h
      rw [hshard, List.length_take, sha256Hex_length] at hlen
      cases hlen
    · rw [hshard] at h
      exact absurd (hchars (List.mem_of_mem_take h)) (by decide)
  rw [Storage.resolve, hkey, Storage.splitOn_append_cons (by decide), Storage.splitOn_append_cons hslash',
    Storage.splitOn_append_cons hslash, List.splitOn_eq_singleton baseName_chars, if_neg (by simp)]
  simp only [List.map_cons, List.map_nil, List.foldl_cons, List.foldl_nil, String.ofList_toList]
  rw [Storage.enter_plain hraw, Storage.enter_plain hdd, Storage.enter_plain hdigest]
  simp

/-- Every document lies below `raw/`. -/
theorem Storage.raw_prefix (root : List String) (data : Bytes) (name : String) :
    root ++ ["raw", shard (sha256Hex data)] <+: Storage.resolve root (storageKey (sha256Hex data) name) := by
  rw [Storage.resolve_storageKey, Storage.enter]
  split
  · exact ⟨[sha256Hex data], by simp⟩
  · split
    · exact ⟨[], by simp [List.dropLast_append_of_ne_nil]⟩
    · exact ⟨[sha256Hex data, baseName name], by simp⟩

section locate
variable {py : Py} {backend : StorageBackend} {root : List String} {key : String} {l : Location}

theorem Storage.resolve_exportKey_injective {i j k k' : Uuid}
    (h : Storage.resolve root (exportKey i k) = Storage.resolve root (exportKey j k')) : i = j ∧ k = k' := by
  rw [Storage.resolve_exportKey, Storage.resolve_exportKey, List.append_cancel_left_eq] at h
  simp only [List.cons.injEq, true_and, and_true] at h
  exact ⟨Uuid.str_injective h.1, Uuid.str_injective ((String.append_left_inj _).mp h.2)⟩

theorem Storage.resolve_exportKey_ne (root : List String) (i k : Uuid) (data : Bytes) (name : String) :
    Storage.resolve root (exportKey i k) ≠ Storage.resolve root (storageKey (sha256Hex data) name) := by
  intro h
  have hraw := Storage.raw_prefix root data name
  rw [← h, Storage.resolve_exportKey, List.prefix_append_right_inj, List.cons_prefix_cons] at hraw
  exact absurd hraw.1 (by decide)

theorem Storage.locate_local (h : Storage.locate py .local root key = .ok l) :
    l = .file (Storage.resolve root key) := by
  rw [Storage.locate, Storage.path] at h
  split at h <;> cases h
  rfl

/-- Where a document lies, by its file name. -/
theorem Storage.resolve_storageKey_cases (root : List String) (data : Bytes) (name : String) :
    (baseName name = ".." ∧
      Storage.resolve root (storageKey (sha256Hex data) name) = root ++ ["raw", shard (sha256Hex data)]) ∨
    baseName name ≠ ".." ∧ ∃ rest, Storage.resolve root (storageKey (sha256Hex data) name) =
      root ++ ["raw", shard (sha256Hex data), sha256Hex data] ++ rest := by
  rw [Storage.resolve_storageKey, Storage.enter]
  by_cases hdots : baseName name = ".."
  · refine .inl ⟨hdots, ?_⟩
    rw [if_neg (by rw [hdots]; decide), if_pos hdots]
    simp [List.dropLast_append_of_ne_nil]
  · refine .inr ⟨hdots, ?_⟩
    split
    · exact ⟨[], by simp⟩
    · exact ⟨[baseName name], rfl⟩

/-- **Two documents in one place** have one digest, or both names are `..`. -/
theorem Storage.resolve_storageKey_eq {data data' : Bytes} {name name' : String}
    (h : Storage.resolve root (storageKey (sha256Hex data) name) =
      Storage.resolve root (storageKey (sha256Hex data') name')) :
    sha256Hex data = sha256Hex data' ∨
      baseName name = ".." ∧ baseName name' = ".." ∧ shard (sha256Hex data) = shard (sha256Hex data') := by
  rcases Storage.resolve_storageKey_cases root data name with ⟨hb, hp⟩ | ⟨hb, rest, hp⟩ <;>
    rcases Storage.resolve_storageKey_cases root data' name' with ⟨hb', hp'⟩ | ⟨hb', rest', hp'⟩ <;>
    rw [hp, hp'] at h
  · rw [List.append_cancel_left_eq] at h
    simp only [List.cons.injEq, true_and, and_true] at h
    exact .inr ⟨hb, hb', h⟩
  · rw [List.append_assoc, List.append_cancel_left_eq] at h
    simp at h
  · rw [List.append_assoc, List.append_cancel_left_eq] at h
    simp at h
  · rw [List.append_assoc, List.append_assoc, List.append_cancel_left_eq] at h
    simp only [List.cons_append, List.cons.injEq, true_and] at h
    exact .inl h.2.1

/-- Two keys at one location are one path. -/
theorem Storage.resolve_eq_of_locate {key' : String} (h : Storage.locate py backend root key = .ok l)
    (h' : Storage.locate py backend root key' = .ok l) : Storage.resolve root key = Storage.resolve root key' := by
  cases backend with
  | «local» => exact Location.file.inj ((Storage.locate_local h).symm.trans (Storage.locate_local h'))
  | s3 =>
    cases h
    cases h'
    rfl

/-- **An export has its location to itself.** -/
theorem Storage.locate_exportKey_injective {i j k k' : Uuid} (h : Storage.locate py backend root (exportKey i k) = .ok l)
    (h' : Storage.locate py backend root (exportKey j k') = .ok l) : i = j ∧ k = k' :=
  Storage.resolve_exportKey_injective (Storage.resolve_eq_of_locate h h')

theorem Storage.locate_exportKey_ne {i k : Uuid} {data : Bytes} {name : String}
    (h : Storage.locate py backend root (exportKey i k) = .ok l) :
    Storage.locate py backend root (storageKey (sha256Hex data) name) ≠ .ok l :=
  fun h' => Storage.resolve_exportKey_ne root i k data name (Storage.resolve_eq_of_locate h h')

end locate

end InvoiceOps
