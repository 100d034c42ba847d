/-
`json.loads`, where the values are strings, nulls, arrays and objects: a
number or a boolean is read nowhere here. A lone surrogate, which Python
would take into a string, is no character and is not read either. A repeated
key keeps its fields, of which a Python dict has the last: no dict is encoded
to one.

The reader inverts the encoder (`readValue_encode`), so no text is the
encoding of two values. It counts down a fuel that the length of the text
bounds.
-/
import InvoiceOps.Python

namespace InvoiceOps.Json

/-! ## Characters -/

def isBlank (c : Char) : Bool := c == ' ' || c == '\t' || c == '\n' || c == '\r'

def skip (cs : List Char) : List Char := cs.dropWhile isBlank

def hexValue (c : Char) : Option Nat :=
  if '0' ≤ c ∧ c ≤ '9' then some (c.toNat - '0'.toNat)
  else if 'a' ≤ c ∧ c ≤ 'f' then some (c.toNat - 'a'.toNat + 10)
  else if 'A' ≤ c ∧ c ≤ 'F' then some (c.toNat - 'A'.toNat + 10)
  else none

/-- The number that hexadecimal digits denote. -/
def hexNumber (cs : List Char) : Option Nat := cs.foldlM (fun n c => (hexValue c).map (16 * n + ·)) 0

def readHex4 (cs : List Char) : Option (Nat × List Char) :=
  if cs.length < 4 then none else (hexNumber (cs.take 4)).map fun n => (n, cs.drop 4)

/-- What follows `\u`: four digits, or the two halves of a surrogate pair. -/
def readUnicode (cs : List Char) : Option (Char × List Char) := do
  let (n, rest) ← readHex4 cs
  if 0xd800 ≤ n ∧ n < 0xdc00 then
    match rest with
    | '\\' :: 'u' :: rest => do
      let (m, rest) ← readHex4 rest
      if 0xdc00 ≤ m ∧ m < 0xe000 then some (Char.ofNat (0x10000 + (n - 0xd800) * 0x400 + (m - 0xdc00)), rest)
      else none
    | _ => none
  else if 0xdc00 ≤ n ∧ n < 0xe000 then none
  else some (Char.ofNat n, rest)

/-- What follows a backslash. -/
def readEscape : List Char → Option (Char × List Char)
  | 'u' :: rest => readUnicode rest
  | '"' :: rest => some ('"', rest)
  | '\\' :: rest => some ('\\', rest)
  | '/' :: rest => some ('/', rest)
  | 'n' :: rest => some ('\n', rest)
  | 'r' :: rest => some ('\r', rest)
  | 't' :: rest => some ('\t', rest)
  | 'f' :: rest => some (Char.ofNat 0x0c, rest)
  | 'b' :: rest => some (Char.ofNat 0x08, rest)
  | _ => none

/-- A string, up to its closing quote. -/
def readChars : Nat → List Char → Option (List Char × List Char)
  | 0, _ => none
  | _ + 1, [] => none
  | n + 1, c :: rest =>
    if c = '"' then some ([], rest)
    else if c = '\\' then do
      let (c, rest) ← readEscape rest
      let (cs, rest) ← readChars n rest
      some (c :: cs, rest)
    else if c.toNat < 0x20 then none
    else do
      let (cs, rest) ← readChars n rest
      some (c :: cs, rest)

/-! ## Values -/

mutual

def readValue : Nat → List Char → Option (Json × List Char)
  | n + 1, '"' :: rest => do
    let (cs, rest) ← readChars n rest
    some (.str (String.ofList cs), rest)
  | n + 1, '[' :: rest =>
    match skip rest with
    | ']' :: rest => some (.arr [], rest)
    | rest => do
      let (xs, rest) ← readItems n rest
      some (.arr xs, rest)
  | n + 1, '{' :: rest =>
    match skip rest with
    | '}' :: rest => some (.obj [], rest)
    | rest => do
      let (fields, rest) ← readFields n rest
      some (.obj fields, rest)
  | _ + 1, 'n' :: 'u' :: 'l' :: 'l' :: rest => some (.null, rest)
  | _, _ => none

/-- The items of an array, up to its closing bracket. -/
def readItems : Nat → List Char → Option (List Json × List Char)
  | 0, _ => none
  | n + 1, text => do
    let (x, rest) ← readValue n text
    match skip rest with
    | ',' :: rest => do
      let (xs, rest) ← readItems n (skip rest)
      some (x :: xs, rest)
    | ']' :: rest => some ([x], rest)
    | _ => none

/-- The fields of an object, up to its closing brace. -/
def readFields : Nat → List Char → Option (List (String × Json) × List Char)
  | n + 1, '"' :: rest => do
    let (k, rest) ← readChars n rest
    match skip rest with
    | ':' :: rest => do
      let (v, rest) ← readValue n (skip rest)
      match skip rest with
      | ',' :: rest => do
        let (fields, rest) ← readFields n (skip rest)
        some ((String.ofList k, v) :: fields, rest)
      | '}' :: rest => some ([(String.ofList k, v)], rest)
      | _ => none
    | _ => none
  | _, _ => none

end

/-- A whole text. -/
def read (cs : List Char) : Option Json := do
  let (v, rest) ← readValue cs.length (skip cs)
  if skip rest = [] then some v else none

/-- `json.loads(data)`, of UTF-8 bytes. -/
def loads (data : Bytes) : Option Json := do
  let cs ← data.toByteArray.utf8Decode?
  read cs.toList

/-! ## Reading a character back -/

theorem skip_cons {c : Char} {cs : List Char} (h : isBlank c = false) : skip (c :: cs) = c :: cs := by
  rw [skip, List.dropWhile_cons, h, if_neg Bool.false_ne_true]

theorem hexValue_digitChar : ∀ d < 16, hexValue (Nat.digitChar d) = some d := by decide

theorem hexNumber_toDigits (n : Nat) : hexNumber (Nat.toDigits 16 n) = some n := by
  induction n using Nat.strong_induction_on with
  | _ n ih =>
    by_cases hn : n < 16
    · rw [Nat.toDigits_of_lt_base hn]
      simp [hexNumber, hexValue_digitChar n hn]
    · have hdiv := ih (n / 16) (by omega)
      rw [hexNumber] at hdiv
      rw [Nat.toDigits_of_base_le (by omega) (by omega), hexNumber, List.foldlM_append, hdiv]
      simp [hexValue_digitChar (n % 16) (by omega)]
      omega

theorem hexNumber_zeros (k : Nat) (cs : List Char) : hexNumber (List.replicate k '0' ++ cs) = hexNumber cs := by
  induction k with
  | zero => rfl
  | succ k ih => exact ih

theorem readHex4_hex {n : Nat} (hn : n < 0x10000) (rest : List Char) :
    readHex4 (Py.hex 4 n ++ rest) = some (n, rest) := by
  have hlen : (Py.hex 4 n).length = 4 := by
    have hle := (Nat.length_toDigits_le_iff (b := 16) (n := n) (k := 4) (by omega) (by omega)).mpr hn
    rw [Py.hex, List.length_append, List.length_replicate]
    omega
  have hnumber : hexNumber (Py.hex 4 n) = some n := by rw [Py.hex, hexNumber_zeros, hexNumber_toDigits]
  rw [readHex4, if_neg (by rw [List.length_append]; omega), List.take_left' hlen, List.drop_left' hlen, hnumber]
  rfl

theorem toNat_cases (c : Char) : c.toNat < 0xd800 ∨ 0xdfff < c.toNat ∧ c.toNat < 0x110000 := c.valid

/-- A character of the basic plane is no surrogate. -/
theorem readUnicode_basic {c : Char} (hc : c.toNat < 0x10000) (rest : List Char) :
    readUnicode (Py.hex 4 c.toNat ++ rest) = some (c, rest) := by
  have hvalid := toNat_cases c
  rw [readUnicode, readHex4_hex hc]
  simp only [Option.bind_eq_bind, Option.bind_some]
  rw [if_neg (by omega), if_neg (by omega), Char.ofNat_toNat]

theorem readUnicode_surrogates {n m : Nat} (hn : 0xd800 ≤ n ∧ n < 0xdc00) (hm : 0xdc00 ≤ m ∧ m < 0xe000)
    (rest : List Char) : readUnicode (Py.hex 4 n ++ (escape16 m ++ rest)) =
      some (Char.ofNat (0x10000 + (n - 0xd800) * 0x400 + (m - 0xdc00)), rest) := by
  rw [readUnicode, readHex4_hex (by omega), escape16, List.cons_append, List.cons_append]
  simp only [Option.bind_eq_bind, Option.bind_some]
  rw [if_pos hn, readHex4_hex (by omega)]
  simp only [Option.bind_some]
  rw [if_pos hm]

/-- One beyond it is the pair of its halves. -/
theorem readUnicode_pair {c : Char} (hc : 0x10000 ≤ c.toNat) (rest : List Char) :
    readUnicode (Py.hex 4 (0xd800 + (c.toNat - 0x10000) / 0x400) ++
      (escape16 (0xdc00 + (c.toNat - 0x10000) % 0x400) ++ rest)) = some (c, rest) := by
  have hvalid := toNat_cases c
  have hjoin : 0x10000 + (0xd800 + (c.toNat - 0x10000) / 0x400 - 0xd800) * 0x400 +
      (0xdc00 + (c.toNat - 0x10000) % 0x400 - 0xdc00) = c.toNat := by omega
  rw [readUnicode_surrogates (by omega) (by omega), hjoin, Char.ofNat_toNat]

theorem readChars_escape {n : Nat} {c : Char} {text rest : List Char} (h : readEscape text = some (c, rest)) :
    readChars (n + 1) ('\\' :: text) = (readChars n rest).map fun r => (c :: r.1, r.2) := by
  rw [readChars, if_neg (by decide), if_pos rfl, h]
  simp only [Option.bind_eq_bind, Option.bind_some]
  cases readChars n rest <;> rfl

theorem readChars_plain {n : Nat} {c : Char} (rest : List Char) (hq : c ≠ '"') (hb : c ≠ '\\') (hc : 0x20 ≤ c.toNat) :
    readChars (n + 1) (c :: rest) = (readChars n rest).map fun r => (c :: r.1, r.2) := by
  rw [readChars, if_neg hq, if_neg hb, if_neg (by omega)]
  cases readChars n rest <;> rfl

theorem readEscape_u (rest : List Char) : readEscape ('u' :: rest) = readUnicode rest := rfl

theorem escape16_append (n : Nat) (rest : List Char) :
    escape16 n ++ rest = '\\' :: ('u' :: (Py.hex 4 n ++ rest)) := rfl

/-- **One character**, however it was escaped. -/
theorem readChars_escapeChar (c : Char) (n : Nat) (rest : List Char) :
    readChars (n + 1) (escapeChar c ++ rest) = (readChars n rest).map fun r => (c :: r.1, r.2) := by
  rw [escapeChar]
  split
  next h => subst h; exact readChars_escape rfl
  split
  next h => subst h; exact readChars_escape rfl
  split
  next h => subst h; exact readChars_escape rfl
  split
  next h => subst h; exact readChars_escape rfl
  split
  next h => subst h; exact readChars_escape rfl
  split
  next h => exact readChars_escape (by rw [← Char.ofNat_toNat c, h]; rfl)
  split
  next h => exact readChars_escape (by rw [← Char.ofNat_toNat c, h]; rfl)
  split
  next hq hb _ _ _ _ _ h => exact readChars_plain rest hq hb h.1
  split
  next h =>
    rw [escape16_append]
    exact readChars_escape ((readEscape_u _).trans (readUnicode_basic h rest))
  next h =>
    rw [List.append_assoc, escape16_append]
    exact readChars_escape ((readEscape_u _).trans (readUnicode_pair (by omega) rest))

theorem readChars_escapes (rest : List Char) : ∀ (cs : List Char) (n : Nat), cs.length < n →
    readChars n (cs.flatMap escapeChar ++ '"' :: rest) = some (cs, rest)
  | [], n + 1, _ => by rw [List.flatMap_nil, List.nil_append, readChars, if_pos rfl]
  | c :: cs, n + 1, h => by
    rw [List.flatMap_cons, List.append_assoc, readChars_escapeChar,
      readChars_escapes rest cs n (by rw [List.length_cons] at h; omega)]
    rfl

theorem escapeChar_ne_nil (c : Char) : escapeChar c ≠ [] := by
  rw [escapeChar, escape16_append]
  repeat' split
  all_goals exact List.cons_ne_nil _ _

theorem length_le_escapes (cs : List Char) : cs.length ≤ (cs.flatMap escapeChar).length := by
  induction cs with
  | nil => exact Nat.le_refl 0
  | cons c cs ih =>
    have hc := List.length_pos_iff.mpr (escapeChar_ne_nil c)
    rw [List.flatMap_cons, List.length_append, List.length_cons]
    omega

/-- **One string.** -/
theorem readChars_encodeStr (s : String) {n : Nat} (h : (encodeStr s).length ≤ n + 1) (rest : List Char) :
    readChars n (s.toList.flatMap escapeChar ++ '"' :: rest) = some (s.toList, rest) := by
  have hlen := length_le_escapes s.toList
  refine readChars_escapes rest s.toList n ?_
  rw [encodeStr, List.length_cons, List.length_append, List.length_singleton] at h
  omega

/-! ## Reading a value back -/

/-- A value begins with no blank, and with no closing bracket. -/
theorem encode_head (v : Json) : ∃ c cs, encode v = c :: cs ∧ isBlank c = false ∧ c ≠ ']' := by
  cases v with
  | null => exact ⟨_, _, rfl, by decide, by decide⟩
  | str s => exact ⟨_, _, rfl, by decide, by decide⟩
  | arr xs => exact ⟨_, _, rfl, by decide, by decide⟩
  | obj fields => exact ⟨_, _, rfl, by decide, by decide⟩

theorem skip_encode (v : Json) (rest : List Char) : skip (encode v ++ rest) = encode v ++ rest := by
  obtain ⟨c, cs, h, hc, -⟩ := encode_head v
  rw [h]
  exact skip_cons hc

theorem readValue_str (s : String) {n : Nat} (h : (encodeStr s).length ≤ n + 1) (rest : List Char) :
    readValue (n + 1) (encodeStr s ++ rest) = some (.str s, rest) := by
  rw [encodeStr, List.cons_append, List.append_assoc, List.singleton_append, readValue, readChars_encodeStr s h]
  simp only [Option.bind_eq_bind, Option.bind_some, String.ofList_toList]

theorem encodeItems_cons {x : Json} {xs : List Json} (hxs : xs ≠ []) :
    encodeItems (x :: xs) = encode x ++ ',' :: encodeItems xs := by
  cases xs with
  | nil => exact absurd rfl hxs
  | cons y xs => rw [encodeItems]

theorem encodeFields_cons {k : String} {v : Json} {fields : List (String × Json)} (hfs : fields ≠ []) :
    encodeFields ((k, v) :: fields) = encodeStr k ++ ':' :: (encode v ++ ',' :: encodeFields fields) := by
  cases fields with
  | nil => exact absurd rfl hfs
  | cons f fields => rw [encodeFields]

theorem encodeItems_head {xs : List Json} (hxs : xs ≠ []) :
    ∃ c cs, encodeItems xs = c :: cs ∧ isBlank c = false ∧ c ≠ ']' := by
  cases xs with
  | nil => exact absurd rfl hxs
  | cons x xs =>
    obtain ⟨c, cs, h, hc⟩ := encode_head x
    by_cases hxs : xs = []
    · subst hxs
      exact ⟨c, cs, by rw [encodeItems, h], hc⟩
    · exact ⟨c, _, by rw [encodeItems_cons hxs, h, List.cons_append], hc⟩

theorem encodeFields_head {fields : List (String × Json)} (hfs : fields ≠ []) : ∃ cs, encodeFields fields = '"' :: cs := by
  cases fields with
  | nil => exact absurd rfl hfs
  | cons f fields =>
    obtain ⟨k, v⟩ := f
    by_cases hfs : fields = []
    · subst hfs
      exact ⟨_, by rw [encodeFields, encodeStr, List.cons_append]⟩
    · exact ⟨_, by rw [encodeFields_cons hfs, encodeStr, List.cons_append]⟩

theorem skip_encodeItems {xs : List Json} (hxs : xs ≠ []) (rest : List Char) :
    skip (encodeItems xs ++ rest) = encodeItems xs ++ rest := by
  obtain ⟨c, cs, h, hc, -⟩ := encodeItems_head hxs
  rw [h]
  exact skip_cons hc

theorem skip_encodeFields {fields : List (String × Json)} (hfs : fields ≠ []) (rest : List Char) :
    skip (encodeFields fields ++ rest) = encodeFields fields ++ rest := by
  obtain ⟨cs, h⟩ := encodeFields_head hfs
  rw [h]
  exact skip_cons (by decide)

/-- An array with items, from its items. -/
theorem readValue_arr {n : Nat} {xs : List Json} {rest rest' : List Char} (hxs : xs ≠ [])
    (h : readItems n (encodeItems xs ++ rest) = some (xs, rest')) :
    readValue (n + 1) ('[' :: (encodeItems xs ++ rest)) = some (.arr xs, rest') := by
  obtain ⟨c, cs, hcs, -, hc⟩ := encodeItems_head hxs
  rw [readValue, skip_encodeItems hxs]
  split
  next heq =>
    rw [hcs] at heq
    exact absurd (List.cons.inj heq).1 hc
  next => rw [h]; rfl

/-- An object with fields, from its fields. -/
theorem readValue_obj {n : Nat} {fields : List (String × Json)} {rest rest' : List Char} (hfs : fields ≠ [])
    (h : readFields n (encodeFields fields ++ rest) = some (fields, rest')) :
    readValue (n + 1) ('{' :: (encodeFields fields ++ rest)) = some (.obj fields, rest') := by
  obtain ⟨cs, hcs⟩ := encodeFields_head hfs
  rw [readValue, skip_encodeFields hfs]
  split
  next heq =>
    rw [hcs] at heq
    exact absurd (List.cons.inj heq).1 (by decide)
  next => rw [h]; rfl

/-- The last field. -/
theorem readFields_last {n : Nat} {k : String} {v : Json} {rest : List Char} (hk : (encodeStr k).length ≤ n + 1)
    (hv : readValue n (encode v ++ '}' :: rest) = some (v, '}' :: rest)) :
    readFields (n + 1) (encodeStr k ++ ':' :: (encode v ++ '}' :: rest)) = some ([(k, v)], rest) := by
  rw [encodeStr, List.cons_append, List.append_assoc, List.singleton_append, readFields, readChars_encodeStr k hk]
  simp only [Option.bind_eq_bind, Option.bind_some, skip_cons (show isBlank ':' = false by decide), skip_encode, hv,
    skip_cons (show isBlank '}' = false by decide), String.ofList_toList]

/-- A field with others after it. -/
theorem readFields_next {n : Nat} {k : String} {v : Json} {fields : List (String × Json)} {rest rest' : List Char}
    (hfs : fields ≠ []) (hk : (encodeStr k).length ≤ n + 1)
    (hv : readValue n (encode v ++ ',' :: (encodeFields fields ++ rest)) =
      some (v, ',' :: (encodeFields fields ++ rest)))
    (h : readFields n (encodeFields fields ++ rest) = some (fields, rest')) :
    readFields (n + 1) (encodeStr k ++ ':' :: (encode v ++ ',' :: (encodeFields fields ++ rest))) =
      some ((k, v) :: fields, rest') := by
  rw [encodeStr, List.cons_append, List.append_assoc, List.singleton_append, readFields, readChars_encodeStr k hk]
  simp only [Option.bind_eq_bind, Option.bind_some, skip_cons (show isBlank ':' = false by decide), skip_encode, hv,
    skip_cons (show isBlank ',' = false by decide), skip_encodeFields hfs, h, String.ofList_toList]

/-- An item with others after it. -/
theorem readItems_next {n : Nat} {x : Json} {xs : List Json} {rest rest' : List Char} (hxs : xs ≠ [])
    (hx : readValue n (encode x ++ ',' :: (encodeItems xs ++ rest)) = some (x, ',' :: (encodeItems xs ++ rest)))
    (h : readItems n (encodeItems xs ++ rest) = some (xs, rest')) :
    readItems (n + 1) (encode x ++ ',' :: (encodeItems xs ++ rest)) = some (x :: xs, rest') := by
  rw [readItems, hx]
  simp only [Option.bind_eq_bind, Option.bind_some, skip_cons (show isBlank ',' = false by decide),
    skip_encodeItems hxs, h]

mutual

/-- **The reader inverts the encoder**, whatever follows. -/
theorem readValue_encode : ∀ (v : Json) (n : Nat) (rest : List Char), (encode v).length ≤ n →
    readValue n (encode v ++ rest) = some (v, rest)
  | .null, n + 1, rest, _ => by
    rw [encode]
    rfl
  | .str s, n + 1, rest, h => by
    rw [encode] at h ⊢
    exact readValue_str s h rest
  | .arr [], n + 1, rest, _ => by
    rw [encode]
    rfl
  | .arr (x :: xs), n + 1, rest, h => by
    rw [encode, List.length_cons, List.length_append, List.length_singleton] at h
    rw [encode, List.cons_append, List.append_assoc, List.singleton_append]
    exact readValue_arr (List.cons_ne_nil _ _) (readItems_encode (x :: xs) n rest (List.cons_ne_nil _ _) (by omega))
  | .obj [], n + 1, rest, _ => by
    rw [encode]
    rfl
  | .obj (f :: fields), n + 1, rest, h => by
    rw [encode, List.length_cons, List.length_append, List.length_singleton] at h
    rw [encode, List.cons_append, List.append_assoc, List.singleton_append]
    exact readValue_obj (List.cons_ne_nil _ _)
      (readFields_encode (f :: fields) n rest (List.cons_ne_nil _ _) (by omega))
  | v, 0, rest, h => by
    obtain ⟨c, cs, hv, -⟩ := encode_head v
    rw [hv] at h
    cases h

theorem readItems_encode : ∀ (xs : List Json) (n : Nat) (rest : List Char), xs ≠ [] → (encodeItems xs).length < n →
    readItems n (encodeItems xs ++ ']' :: rest) = some (xs, rest)
  | [], _, _, h, _ => absurd rfl h
  | [x], n + 1, rest, _, h => by
    rw [encodeItems] at h ⊢
    rw [readItems, readValue_encode x n _ (by omega)]
    rfl
  | x :: y :: xs, n + 1, rest, _, h => by
    have hxs : y :: xs ≠ [] := List.cons_ne_nil _ _
    rw [encodeItems_cons hxs] at h ⊢
    rw [List.length_append, List.length_cons] at h
    rw [List.append_assoc, List.cons_append]
    exact readItems_next hxs (readValue_encode x n _ (by omega)) (readItems_encode (y :: xs) n rest hxs (by omega))

theorem readFields_encode : ∀ (fields : List (String × Json)) (n : Nat) (rest : List Char), fields ≠ [] →
    (encodeFields fields).length < n → readFields n (encodeFields fields ++ '}' :: rest) = some (fields, rest)
  | [], _, _, h, _ => absurd rfl h
  | [(k, v)], n + 1, rest, _, h => by
    rw [encodeFields] at h ⊢
    rw [List.length_append, List.length_cons] at h
    rw [List.append_assoc, List.cons_append]
    exact readFields_last (by omega) (readValue_encode v n _ (by omega))
  | (k, v) :: f :: fields, n + 1, rest, _, h => by
    have hfs : f :: fields ≠ [] := List.cons_ne_nil _ _
    rw [encodeFields_cons hfs] at h ⊢
    rw [List.length_append, List.length_cons, List.length_append, List.length_cons] at h
    rw [List.append_assoc, List.cons_append, List.append_assoc, List.cons_append]
    exact readFields_next hfs (by omega) (readValue_encode v n _ (by omega))
      (readFields_encode (f :: fields) n rest hfs (by omega))

end

/-- **A whole text.** -/
theorem read_encode (v : Json) : read (encode v) = some v := by
  have hskip := skip_encode v []
  have hvalue := readValue_encode v (encode v).length [] (Nat.le_refl _)
  rw [List.append_nil] at hskip hvalue
  rw [read, hskip, hvalue]
  rfl

/-! ## Bytes -/

def Ascii (cs : List Char) : Prop := ∀ c ∈ cs, c.toNat < 0x80

theorem Ascii.cons {c : Char} {cs : List Char} (hc : c.toNat < 0x80) (h : Ascii cs) : Ascii (c :: cs) :=
  List.forall_mem_cons.mpr ⟨hc, h⟩

theorem Ascii.append {cs ds : List Char} (h : Ascii cs) (h' : Ascii ds) : Ascii (cs ++ ds) :=
  List.forall_mem_append.mpr ⟨h, h'⟩

theorem ascii_nil : Ascii [] := List.forall_mem_nil _

theorem digitChar_ascii : ∀ d < 16, (Nat.digitChar d).toNat < 0x80 := by decide

theorem ascii_toDigits (n : Nat) : Ascii (Nat.toDigits 16 n) := by
  induction n using Nat.strong_induction_on with
  | _ n ih =>
    by_cases hn : n < 16
    · rw [Nat.toDigits_of_lt_base hn]
      exact ascii_nil.cons (digitChar_ascii n hn)
    · rw [Nat.toDigits_of_base_le (by omega) (by omega)]
      exact (ih (n / 16) (by omega)).append (ascii_nil.cons (digitChar_ascii (n % 16) (by omega)))

theorem ascii_escape16 (n : Nat) : Ascii (escape16 n) := by
  have hzeros : Ascii (List.replicate (4 - (Nat.toDigits 16 n).length) '0') := by
    intro c hc
    rw [List.eq_of_mem_replicate hc]
    decide
  exact ((hzeros.append (ascii_toDigits n)).cons (by decide)).cons (by decide)

theorem ascii_escapeChar (c : Char) : Ascii (escapeChar c) := by
  have hshort : ∀ d : Char, d.toNat < 0x80 → Ascii ['\\', d] := fun d hd => (ascii_nil.cons hd).cons (by decide)
  rw [escapeChar]
  repeat' split
  all_goals
    first
    | exact hshort _ (by decide)
    | exact ascii_nil.cons (by omega)
    | exact ascii_escape16 _
    | exact (ascii_escape16 _).append (ascii_escape16 _)

theorem ascii_encodeStr (s : String) : Ascii (encodeStr s) := by
  have hbody : Ascii (s.toList.flatMap escapeChar) := by
    intro d hd
    obtain ⟨c, -, hc⟩ := List.mem_flatMap.mp hd
    exact ascii_escapeChar c d hc
  exact (hbody.append (ascii_nil.cons (by decide))).cons (by decide)

mutual

/-- **The encoding is ASCII.** -/
theorem ascii_encode : ∀ v : Json, Ascii (encode v)
  | .null => by
    rw [encode]
    exact (((ascii_nil.cons (by decide)).cons (by decide)).cons (by decide)).cons (by decide)
  | .str s => by
    rw [encode]
    exact ascii_encodeStr s
  | .arr xs => by
    rw [encode]
    exact ((ascii_encodeItems xs).append (ascii_nil.cons (by decide))).cons (by decide)
  | .obj fields => by
    rw [encode]
    exact ((ascii_encodeFields fields).append (ascii_nil.cons (by decide))).cons (by decide)

theorem ascii_encodeItems : ∀ xs : List Json, Ascii (encodeItems xs)
  | [] => by
    rw [encodeItems]
    exact ascii_nil
  | [x] => by
    rw [encodeItems]
    exact ascii_encode x
  | x :: y :: xs => by
    rw [encodeItems]
    exact (ascii_encode x).append ((ascii_encodeItems (y :: xs)).cons (by decide))

theorem ascii_encodeFields : ∀ fields : List (String × Json), Ascii (encodeFields fields)
  | [] => by
    rw [encodeFields]
    exact ascii_nil
  | [(k, v)] => by
    rw [encodeFields]
    exact (ascii_encodeStr k).append ((ascii_encode v).cons (by decide))
  | (k, v) :: f :: fields => by
    rw [encodeFields]
    exact (ascii_encodeStr k).append
      (((ascii_encode v).append ((ascii_encodeFields (f :: fields)).cons (by decide))).cons (by decide))

end

theorem loads_utf8 (cs : List Char) : loads (cs.flatMap String.utf8EncodeChar) = read cs := by
  have hdecode : (cs.flatMap String.utf8EncodeChar).toByteArray.utf8Decode? = some cs.toArray :=
    List.utf8Decode?_utf8Encode
  rw [loads, hdecode]
  rfl

theorem bytes_of_ascii {cs : List Char} (h : Ascii cs) :
    (cs.map fun c => c.toNat.toUInt8) = cs.flatMap String.utf8EncodeChar := by
  induction cs with
  | nil => rfl
  | cons c cs ih =>
    obtain ⟨hc, hcs⟩ := List.forall_mem_cons.mp h
    have hone : String.utf8EncodeChar c = [c.toNat.toUInt8] := if_pos (show c.toNat ≤ 0x7f by omega)
    rw [List.map_cons, List.flatMap_cons, hone, ih hcs, List.singleton_append]

/-- **What was dumped is loaded again**, its keys sorted. -/
theorem loads_toBytes (v : Json) : loads v.toBytes = some v.sortKeys := by
  rw [toBytes, bytes_of_ascii (ascii_encode _), loads_utf8, read_encode]

/-- No bytes are the dump of two values, but for the order of their keys. -/
theorem toBytes_inj {v v' : Json} : v.toBytes = v'.toBytes ↔ v.sortKeys = v'.sortKeys := by
  constructor
  · intro h
    exact Option.some.inj (by rw [← loads_toBytes, h, loads_toBytes])
  · intro h
    rw [toBytes, toBytes, h]

end InvoiceOps.Json
