import ProxyClient.PyStr

/-!
# The text of `json.dumps`

With its default settings `json.dumps` writes one line of ASCII. A code point that is not
printable is written as one or two UTF-16 units, so that a string can be read back unless it
holds a high surrogate.
-/

namespace ProxyClient

/-- What is written for a float: its `repr`, `NaN`, `Infinity` or `-Infinity`. -/
structure FloatText where
  text : List Char
  plain : ∀ c ∈ text, c.isAlphanum = true ∨ c ∈ ['+', '-', '.']

/-- A value that `json.dumps` serializes: what payloads and handshakes are made of. -/
inductive PyValue
  | none
  | bool (b : Bool)
  | int (n : ℤ)
  | float (x : FloatText)
  | str (s : PyStr)
  | list (xs : List PyValue)
  | dict (items : List (PyStr × PyValue))

namespace JsonText

/-- `\uXXXX`, with four digits in lower case. -/
def hexUnit (n : ℕ) : List Char :=
  ['\\', 'u', (n / 4096 % 16).digitChar, (n / 256 % 16).digitChar, (n / 16 % 16).digitChar,
    (n % 16).digitChar]

/-- The characters that are escaped by a letter. -/
def shortEscapes : List (Char × Char) :=
  [('"', '"'), ('\\', '\\'), ('\n', 'n'), ('\r', 'r'), ('\t', 't'), ('\x0c', 'f'), ('\x08', 'b')]

/-- A code point between quotes: printable ASCII as it is, but for the quote and the backslash, and
everything else as an escape. -/
def escapeChar : CodePoint → List Char
  | .surrogate n => hexUnit (0xD800 + n)
  | .scalar c =>
    match shortEscapes.lookup c with
    | some e => ['\\', e]
    | none =>
      if 32 ≤ c.toNat ∧ c.toNat ≤ 126 then [c]
      else if c.toNat < 0x10000 then hexUnit c.toNat
      else
        hexUnit (0xD800 + (c.toNat - 0x10000) / 1024) ++
          hexUnit (0xDC00 + (c.toNat - 0x10000) % 1024)

/-- A string in quotes, as `ensure_ascii` writes it. -/
def quote (s : PyStr) : List Char := '"' :: s.flatMap escapeChar ++ ['"']

mutual

/-- `json.dumps(value)` with the default separators. -/
def dumps : PyValue → List Char
  | .none => "null".toList
  | .bool true => "true".toList
  | .bool false => "false".toList
  | .int n => (toString n).toList
  | .float x => x.text
  | .str s => quote s
  | .list [] => "[]".toList
  | .list (x :: xs) => '[' :: dumps x ++ dumpsList xs ++ [']']
  | .dict [] => "{}".toList
  | .dict ((k, v) :: items) => '{' :: quote k ++ ": ".toList ++ dumps v ++ dumpsItems items ++ ['}']

/-- The elements of a list after the first. -/
def dumpsList : List PyValue → List Char
  | [] => []
  | x :: xs => ", ".toList ++ dumps x ++ dumpsList xs

/-- The items of a dict after the first. -/
def dumpsItems : List (PyStr × PyValue) → List Char
  | [] => []
  | (k, v) :: items => ", ".toList ++ quote k ++ ": ".toList ++ dumps v ++ dumpsItems items

end

/-! ## What is not written -/

/-- `sys.get_int_max_str_digits()`, as Python sets it. -/
def maxStrDigits : ℕ := 4300

mutual

/-- Whether `json.dumps` writes a value. It raises a `ValueError` for an integer of too many
digits. -/
def printable : PyValue → Bool
  | .int n => decide (n.natAbs < 10 ^ maxStrDigits)
  | .list xs => printableList xs
  | .dict items => printableItems items
  | _ => true

/-- All the elements of a list can be printed. -/
def printableList : List PyValue → Bool
  | [] => true
  | x :: xs => printable x && printableList xs

/-- All the values of a dict can be printed. -/
def printableItems : List (PyStr × PyValue) → Bool
  | [] => true
  | (_, v) :: items => printable v && printableItems items

end

/-- An integer of one digit is written. -/
theorem printable_int {n : ℤ} (h : n.natAbs < 10) : printable (.int n) = true := by
  rw [printable, decide_eq_true_eq]
  calc n.natAbs < 10 ^ 1 := h
    _ ≤ 10 ^ maxStrDigits := Nat.pow_le_pow_right (by decide) (by decide)

/-- A string can always be printed, as every code point has an escape. -/
@[simp] theorem printable_str (s : PyStr) : printable (.str s) = true := by simp [printable]

/-- A dict is written if its values are. -/
theorem printable_dict {fields : List (PyStr × PyValue)}
    (h : ∀ field ∈ fields, printable field.2 = true) : printable (.dict fields) = true := by
  rw [printable]
  induction fields with
  | nil => rfl
  | cons field fields ih =>
    obtain ⟨hvalue, hrest⟩ := List.forall_mem_cons.mp h
    rw [printableItems, hvalue, ih hrest]
    rfl

/-! ## One line -/

/-- The hexadecimal digits of an escape contain no line feed. -/
theorem lineFeed_not_mem_hexUnit (n : ℕ) : '\n' ∉ hexUnit n := by
  have digit : ∀ d < 16, '\n' ≠ d.digitChar := by decide
  have hdigit (m : ℕ) : '\n' ≠ (m % 16).digitChar := digit _ (Nat.mod_lt _ (by decide))
  simp [hexUnit, hdigit]

/-- The letters of the table are its second components. -/
theorem mem_shortEscapes {c e : Char} (h : shortEscapes.lookup c = some e) :
    (c, e) ∈ shortEscapes := by
  obtain ⟨l₁, l₂, hl, -⟩ := List.lookup_eq_some_iff.mp h
  rw [hl]
  simp

/-- The encoder escapes the line feed, so no character is written as one. -/
theorem lineFeed_not_mem_escapeChar (p : CodePoint) : '\n' ∉ escapeChar p := by
  cases p with
  | surrogate n => exact lineFeed_not_mem_hexUnit _
  | scalar c =>
    simp only [escapeChar]
    split
    · rename_i e he
      have hletter : ∀ entry ∈ shortEscapes, '\n' ∉ ['\\', entry.2] := by decide
      exact hletter _ (mem_shortEscapes he)
    · rename_i hshort
      split_ifs
      · rintro hmem
        rw [← List.mem_singleton.mp hmem] at hshort
        cases hshort
      · exact lineFeed_not_mem_hexUnit _
      · intro hmem
        rcases List.mem_append.mp hmem with h | h <;> exact lineFeed_not_mem_hexUnit _ h

/-- A string between its quotes therefore stays on one line. -/
theorem lineFeed_not_mem_quote (s : PyStr) : '\n' ∉ quote s := by
  have hbody : '\n' ∉ s.flatMap escapeChar := by
    intro h
    obtain ⟨p, -, hp⟩ := List.mem_flatMap.mp h
    exact lineFeed_not_mem_escapeChar p hp
  simp [quote, hbody]

/-- A number is written in one line. -/
theorem lineFeed_not_mem_int (n : ℤ) : '\n' ∉ (toString n).toList := by
  have hnat (m : ℕ) : '\n' ∉ Nat.toDigits 10 m := by
    intro h
    cases Nat.isDigit_of_mem_toDigits (by decide) (by decide) h
  rw [Int.toString_eq_repr, Int.repr_eq_if]
  split <;> simp [hnat]

/-- The text of a float contains digits, a point and an exponent, or is a literal. -/
theorem lineFeed_not_mem_float (x : FloatText) : '\n' ∉ x.text := by
  intro h
  rcases x.plain _ h with hletter | hsign
  · cases hletter
  · simp at hsign

mutual

/-- `json.dumps` writes one line, so a body cannot reach into the next part of the message. -/
theorem lineFeed_not_mem_dumps (v : PyValue) : '\n' ∉ dumps v := by
  match v with
  | .none => simp [dumps]
  | .bool true => simp [dumps]
  | .bool false => simp [dumps]
  | .int n =>
    rw [dumps]
    exact lineFeed_not_mem_int n
  | .float x =>
    rw [dumps]
    exact lineFeed_not_mem_float x
  | .str s =>
    rw [dumps]
    exact lineFeed_not_mem_quote s
  | .list [] => simp [dumps]
  | .list (x :: xs) => simp [dumps, lineFeed_not_mem_dumps x, lineFeed_not_mem_dumpsList xs]
  | .dict [] => simp [dumps]
  | .dict ((k, v) :: items) =>
    simp [dumps, lineFeed_not_mem_quote, lineFeed_not_mem_dumps v,
      lineFeed_not_mem_dumpsItems items]

/-- The elements of a list are separated by a comma and a blank, not by a new line. -/
theorem lineFeed_not_mem_dumpsList (xs : List PyValue) : '\n' ∉ dumpsList xs := by
  match xs with
  | [] => simp [dumpsList]
  | x :: xs => simp [dumpsList, lineFeed_not_mem_dumps x, lineFeed_not_mem_dumpsList xs]

/-- So are the pairs of an object. -/
theorem lineFeed_not_mem_dumpsItems (items : List (PyStr × PyValue)) :
    '\n' ∉ dumpsItems items := by
  match items with
  | [] => simp [dumpsItems]
  | (k, v) :: items =>
    simp [dumpsItems, lineFeed_not_mem_quote, lineFeed_not_mem_dumps v,
      lineFeed_not_mem_dumpsItems items]

end

/-! ## Strings can be read back -/

/-- The value of a hexadecimal digit in lower case. -/
def hexVal (c : Char) : ℕ := if c.isDigit then c.toNat - 48 else c.toNat - 87

/-- Read `\uXXXX`, the escape of one unit. -/
def readUnit : List Char → Option (ℕ × List Char)
  | '\\' :: 'u' :: a :: b :: c :: d :: rest =>
    some (4096 * hexVal a + 256 * hexVal b + 16 * hexVal c + hexVal d, rest)
  | _ => none

/-- Read a code point that is not written as UTF-16 units. -/
def readPlain : List Char → Option (CodePoint × List Char)
  | [] => none
  | c :: rest =>
    if c = '\\' then
      rest.head?.bind (fun e =>
        (shortEscapes.find? (fun entry => entry.2 = e)).map
          (fun entry => (.scalar entry.1, rest.tail)))
    else some (.scalar c, rest)

/-- The code point of a UTF-16 unit, or of a pair whose second unit comes next. -/
def ofUnits (n : ℕ) (rest : List Char) : Option (CodePoint × List Char) :=
  if n < 0xD800 ∨ 0xE000 ≤ n then some (.scalar (Char.ofNat n), rest)
  else if 0xDC00 ≤ n then some (.surrogate (Fin.ofNat 2048 (n - 0xD800)), rest)
  else
    (readUnit rest).map (fun unit =>
      (.scalar (Char.ofNat (0x10000 + (1024 * (n - 0xD800) + (unit.1 - 0xDC00)))), unit.2))

/-- Read a code point between quotes, escaped or not. -/
def readChar (text : List Char) : Option (CodePoint × List Char) :=
  match readUnit text with
  | some (n, rest) => ofUnits n rest
  | none => readPlain text

/-- An escaped unit is read back as the same unit. -/
theorem readUnit_hexUnit {n : ℕ} (h : n < 0x10000) (rest : List Char) :
    readUnit (hexUnit n ++ rest) = some (n, rest) := by
  have digit : ∀ d < 16, hexVal d.digitChar = d := by decide
  have hdigit (m : ℕ) : hexVal (m % 16).digitChar = m % 16 := digit _ (Nat.mod_lt _ (by decide))
  have hsum : 4096 * (n / 4096 % 16) + 256 * (n / 256 % 16) + 16 * (n / 16 % 16) + n % 16 = n := by
    omega
  simp [hexUnit, readUnit, hdigit, hsum]

/-- Only a backslash starts an escape. -/
theorem readUnit_of_ne {c : Char} (h : c ≠ '\\') (rest : List Char) :
    readUnit (c :: rest) = none := by
  unfold readUnit
  split
  · rename_i heq
    exact absurd (List.head_eq_of_cons_eq heq) h
  · rfl

/-- A backslash before any other letter than `u` starts one of the short escapes. -/
theorem readUnit_of_letter {e : Char} (h : e ≠ 'u') (rest : List Char) :
    readUnit ('\\' :: e :: rest) = none := by
  unfold readUnit
  split
  · rename_i heq
    exact absurd (List.head_eq_of_cons_eq (List.tail_eq_of_cons_eq heq)) h
  · rfl

/-- A unit is read as a character of its own, or as half of a surrogate pair. -/
theorem readChar_of_unit {n : ℕ} (h : n < 0x10000) (rest : List Char) :
    readChar (hexUnit n ++ rest) = ofUnits n rest := by
  rw [readChar, readUnit_hexUnit h]

/-- A code point that is no high surrogate is read back. -/
theorem readChar_escapeChar {p : CodePoint} (h : p.isHigh = false) (rest : List Char) :
    readChar (escapeChar p ++ rest) = some (p, rest) := by
  cases p with
  | surrogate n =>
    have hlow : 0x400 ≤ n.val := by simpa [CodePoint.isHigh] using h
    have hlt := n.isLt
    have hn : Fin.ofNat 2048 (0xD800 + n.val - 0xD800) = n := by
      rw [Nat.add_sub_cancel_left]
      exact Fin.ofNat_val_eq_self n
    rw [escapeChar, readChar_of_unit (by omega), ofUnits, if_neg (by omega), if_pos (by omega), hn]
  | scalar c =>
    have hvalid : c.toNat < 0xD800 ∨ 0xE000 ≤ c.toNat ∧ c.toNat < 0x110000 := by
      rcases c.valid with hlt | ⟨hgt, hlt⟩
      · exact .inl hlt
      · exact .inr ⟨hgt, hlt⟩
    simp only [escapeChar]
    split
    · rename_i e he
      have hentry : ∀ entry ∈ shortEscapes, entry.2 ≠ 'u' ∧
          shortEscapes.find? (fun entry' => entry'.2 = entry.2) = some entry := by
        decide
      obtain ⟨hne, hfind⟩ := hentry _ (mem_shortEscapes he)
      rw [List.cons_append, List.singleton_append, readChar, readUnit_of_letter hne]
      simp [readPlain, hfind]
    · rename_i hshort
      split_ifs with hprint hbmp
      · have hne : c ≠ '\\' := by
          rintro rfl
          cases hshort
        rw [List.singleton_append, readChar, readUnit_of_ne hne]
        simp [readPlain, hne]
      · rw [readChar_of_unit hbmp, ofUnits, if_pos (by omega), Char.ofNat_toNat]
      · rw [List.append_assoc, readChar_of_unit (by omega), ofUnits, if_neg (by omega),
          if_neg (by omega), readUnit_hexUnit (by omega)]
        have hpair : 0x10000 + (1024 * (0xD800 + (c.toNat - 0x10000) / 1024 - 0xD800) +
            (0xDC00 + (c.toNat - 0x10000) % 1024 - 0xDC00)) = c.toNat := by omega
        simp only [Option.map_some, hpair, Char.ofNat_toNat]

/-- The quote ends a string, since the encoder writes it as an escape inside of one. -/
theorem escapeChar_eq_cons (p : CodePoint) : ∃ c rest, escapeChar p = c :: rest ∧ c ≠ '"' := by
  cases p with
  | surrogate n => exact ⟨_, _, rfl, by decide⟩
  | scalar c =>
    simp only [escapeChar]
    split
    · exact ⟨_, _, rfl, by decide⟩
    · rename_i hshort
      split_ifs
      · refine ⟨c, [], rfl, ?_⟩
        rintro rfl
        cases hshort
      · exact ⟨_, _, rfl, by decide⟩
      · exact ⟨_, _, rfl, by decide⟩

/-- A string in quotes determines the string and what comes after it. -/
theorem quote_inj {s t : PyStr} {x y : List Char} (hs : ∀ p ∈ s, p.isHigh = false)
    (ht : ∀ p ∈ t, p.isHigh = false) (h : quote s ++ x = quote t ++ y) : s = t ∧ x = y := by
  have hbody : s.flatMap escapeChar ++ '"' :: x = t.flatMap escapeChar ++ '"' :: y := by
    simpa [quote] using h
  clear h
  induction s generalizing t with
  | nil =>
    cases t with
    | nil => exact ⟨rfl, List.tail_eq_of_cons_eq hbody⟩
    | cons q t =>
      obtain ⟨c, rest, hq, hne⟩ := escapeChar_eq_cons q
      rw [List.flatMap_cons, hq] at hbody
      exact absurd (List.head_eq_of_cons_eq hbody).symm hne
  | cons p s ih =>
    cases t with
    | nil =>
      obtain ⟨c, rest, hp, hne⟩ := escapeChar_eq_cons p
      rw [List.flatMap_cons, hp] at hbody
      exact absurd (List.head_eq_of_cons_eq hbody) hne
    | cons q t =>
      have hread := congrArg readChar hbody
      rw [List.flatMap_cons, List.flatMap_cons, List.append_assoc, List.append_assoc,
        readChar_escapeChar (hs p (by simp)), readChar_escapeChar (ht q (by simp))] at hread
      obtain ⟨rfl, hrest⟩ := Prod.mk.inj (Option.some.inj hread)
      obtain ⟨rfl, rfl⟩ := ih (fun p' hp' => hs p' (by simp [hp']))
        (fun q' hq' => ht q' (by simp [hq'])) hrest
      exact ⟨rfl, rfl⟩

end JsonText

end ProxyClient
