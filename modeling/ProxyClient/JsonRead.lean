import ProxyClient.JsonText
import Mathlib.Data.List.Induction

/-!
# The reader of `json.loads`

`json.loads` reads what `json.dumps` writes and more: blanks between the tokens, hexadecimal
digits of either case, and dicts that name a key twice. It raises on everything else. A value
is read back from its own text if none of its strings holds a high surrogate and its dicts name
every key once.
-/

namespace ProxyClient

namespace JsonText

/-! ## Strings -/

/-- Skip the blanks between two tokens, which are the four of `WHITESPACE`. -/
def skipBlanks (text : List Char) : List Char :=
  text.dropWhile (fun c => c ∈ [' ', '\t', '\n', '\r'])

/-- The value of a hexadecimal digit of either case. -/
def hexDigit (c : Char) : Option ℕ :=
  if c.isDigit then some (c.toNat - 48)
  else if 97 ≤ c.toNat ∧ c.toNat ≤ 102 then some (c.toNat - 87)
  else if 65 ≤ c.toNat ∧ c.toNat ≤ 70 then some (c.toNat - 55)
  else none

/-- `_decode_uXXXX`: the value of four hexadecimal digits, in either case. -/
def scanHex : List Char → Option (ℕ × List Char)
  | a :: b :: c :: d :: rest =>
    (hexDigit a).bind fun a => (hexDigit b).bind fun b => (hexDigit c).bind fun c =>
      (hexDigit d).map fun d => (4096 * a + 256 * b + 16 * c + d, rest)
  | _ => none

/-- `chr(n)`, which is a surrogate for the numbers in between. -/
def chr (n : ℕ) : CodePoint :=
  if 0xD800 ≤ n ∧ n < 0xE000 then
    .surrogate ⟨(n - 0xD800) % 2048, Nat.mod_lt _ (Nat.succ_pos 2047)⟩
  else .scalar (Char.ofNat n)

/-- The code point of a unit that was read. A high surrogate and the low one that follows make
one. -/
def joinUnits (n : ℕ) (rest : List Char) : Option (CodePoint × List Char) :=
  if 0xD800 ≤ n ∧ n < 0xDC00 ∧ ['\\', 'u'] <+: rest then
    (scanHex (rest.drop 2)).map fun low =>
      if 0xDC00 ≤ low.1 ∧ low.1 < 0xE000 then
        (.scalar (Char.ofNat (0x10000 + (1024 * (n - 0xD800) + (low.1 - 0xDC00)))), low.2)
      else (chr n, rest)
  else some (chr n, rest)

/-- The code point after `\u`, which may be written as the two halves of a pair. -/
def scanUnits (text : List Char) : Option (CodePoint × List Char) :=
  (scanHex text).bind fun unit => joinUnits unit.1 unit.2

/-- What a letter after a backslash stands for. -/
def unescape (e : Char) : Option Char :=
  if e = '/' then some '/'
  else (shortEscapes.find? (fun entry => entry.2 = e)).map Prod.fst

/-- A code point between quotes. Control characters must be escaped. -/
def scanChar : List Char → Option (CodePoint × List Char)
  | [] => none
  | c :: rest =>
    if c = '\\' then
      match rest with
      | [] => none
      | e :: rest =>
        if e = 'u' then scanUnits rest else (unescape e).map (fun c => (.scalar c, rest))
    else if c.toNat < 32 then none
    else some (.scalar c, rest)

/-- `scanstring`: the rest of a string after its opening quote. -/
def scanString : ℕ → List Char → Option (PyStr × List Char)
  | 0, _ => none
  | fuel + 1, text =>
    if text.head? = some '"' then some ([], text.tail)
    else
      (scanChar text).bind fun first =>
        (scanString fuel first.2).map fun s => (first.1 :: s.1, s.2)

/-- The four digits that the encoder writes for a unit are the digits that the reader wants. -/
theorem scanHex_hexUnit {n : ℕ} (h : n < 0x10000) (rest : List Char) :
    scanHex ((hexUnit n).drop 2 ++ rest) = some (n, rest) := by
  have digit : ∀ d < 16, hexDigit d.digitChar = some d := by decide
  have hdigit (m : ℕ) : hexDigit (m % 16).digitChar = some (m % 16) :=
    digit _ (Nat.mod_lt _ (by decide))
  have hsum : 4096 * (n / 4096 % 16) + 256 * (n / 256 % 16) + 16 * (n / 16 % 16) + n % 16 = n := by
    omega
  simp [hexUnit, scanHex, hdigit, hsum]

/-- A backslash and a `u` send the reader to the units, which may be the halves of a pair. -/
theorem scanChar_hexUnit (n : ℕ) (rest : List Char) :
    scanChar (hexUnit n ++ rest) = scanUnits ((hexUnit n).drop 2 ++ rest) := by
  simp [hexUnit, scanChar]

/-- A unit that is no high surrogate is a code point of its own. -/
theorem scanUnits_single {n : ℕ} (h : n < 0x10000) (hhigh : n < 0xD800 ∨ 0xDC00 ≤ n)
    (rest : List Char) : scanUnits ((hexUnit n).drop 2 ++ rest) = some (chr n, rest) := by
  have hno : ¬(0xD800 ≤ n ∧ n < 0xDC00 ∧ ['\\', 'u'] <+: rest) := by
    rintro ⟨hge, hlt, -⟩
    omega
  rw [scanUnits, scanHex_hexUnit h, Option.bind_some, joinUnits, if_neg hno]

/-- A high surrogate and a low one make a code point. -/
theorem scanUnits_pair {i j : ℕ} (hi : i < 0x400) (hj : j < 0x400) (rest : List Char) :
    scanUnits ((hexUnit (0xD800 + i)).drop 2 ++ (hexUnit (0xDC00 + j) ++ rest)) =
      some (.scalar (Char.ofNat (0x10000 + (1024 * i + j))), rest) := by
  have hpair : 0xD800 ≤ 0xD800 + i ∧ 0xD800 + i < 0xDC00 ∧
      ['\\', 'u'] <+: hexUnit (0xDC00 + j) ++ rest :=
    ⟨by omega, by omega, ⟨(hexUnit (0xDC00 + j)).drop 2 ++ rest, by simp [hexUnit]⟩⟩
  have hlow : 0xDC00 ≤ 0xDC00 + j ∧ 0xDC00 + j < 0xE000 := by omega
  have hdrop : (hexUnit (0xDC00 + j) ++ rest).drop 2 = (hexUnit (0xDC00 + j)).drop 2 ++ rest := by
    simp [hexUnit]
  rw [scanUnits, scanHex_hexUnit (by omega), Option.bind_some, joinUnits, if_pos hpair, hdrop,
    scanHex_hexUnit (by omega), Option.map_some, if_pos hlow, Nat.add_sub_cancel_left,
    Nat.add_sub_cancel_left]

/-- A code point that is no high surrogate is read back. -/
theorem scanChar_escapeChar {p : CodePoint} (h : p.isHigh = false) (rest : List Char) :
    scanChar (escapeChar p ++ rest) = some (p, rest) := by
  cases p with
  | surrogate n =>
    have hlow : 0x400 ≤ n.val := by simpa [CodePoint.isHigh] using h
    have hlt := n.isLt
    have hn : (0xD800 + n.val - 0xD800) % 2048 = n.val := by omega
    rw [escapeChar, scanChar_hexUnit, scanUnits_single (by omega) (by omega), chr,
      if_pos (by omega)]
    simp only [hn]
  | scalar c =>
    have hvalid : c.toNat < 0xD800 ∨ 0xE000 ≤ c.toNat ∧ c.toNat < 0x110000 := by
      rcases c.valid with hlt | ⟨hgt, hlt⟩
      · exact .inl hlt
      · exact .inr ⟨hgt, hlt⟩
    simp only [escapeChar]
    split
    · rename_i e he
      have hentry : ∀ entry ∈ shortEscapes, entry.2 ≠ 'u' ∧ unescape entry.2 = some entry.1 := by
        decide
      obtain ⟨hne, hletter⟩ := hentry _ (mem_shortEscapes he)
      simp [scanChar, hne, hletter]
    · rename_i hshort
      split_ifs with hprint hbmp
      · have hne : c ≠ '\\' := by
          rintro rfl
          cases hshort
        have hge : ¬c.toNat < 32 := by omega
        simp [scanChar, hne, hge]
      · have hchr : chr c.toNat = .scalar c := by
          rw [chr, if_neg (by omega), Char.ofNat_toNat]
        rw [scanChar_hexUnit, scanUnits_single hbmp (by omega), hchr]
      · have hsum : 0x10000 + (1024 * ((c.toNat - 0x10000) / 1024) + (c.toNat - 0x10000) % 1024) =
            c.toNat := by omega
        rw [List.append_assoc, scanChar_hexUnit, scanUnits_pair (by omega) (by omega), hsum,
          Char.ofNat_toNat]

/-- A string is read back, and its quote ends it. -/
theorem scanString_quote {s : PyStr} (hs : ∀ p ∈ s, p.isHigh = false) {fuel : ℕ}
    (hfuel : s.length < fuel) (rest : List Char) :
    scanString fuel (s.flatMap escapeChar ++ '"' :: rest) = some (s, rest) := by
  induction s generalizing fuel with
  | nil =>
    cases fuel with
    | zero => simp at hfuel
    | succ fuel => simp [scanString]
  | cons p s ih =>
    cases fuel with
    | zero => simp at hfuel
    | succ fuel =>
      obtain ⟨c, front, hp, hne⟩ := escapeChar_eq_cons p
      have hquote : (escapeChar p ++ (s.flatMap escapeChar ++ '"' :: rest)).head? ≠ some '"' := by
        simp [hp, hne]
      have hread := scanChar_escapeChar (hs p (by simp)) (s.flatMap escapeChar ++ '"' :: rest)
      have hrest := ih (fun q hq => hs q (by simp [hq])) (by simpa using hfuel)
      rw [List.flatMap_cons, List.append_assoc, scanString, if_neg hquote, hread,
        Option.bind_some, hrest, Option.map_some]

/-! ## Numbers -/

/-- The text of a number, part by part. -/
structure Numeral where
  negative : Bool
  whole : List Char
  /-- The digits after the point. -/
  frac : List Char
  /-- The letter and the sign of the exponent. -/
  mark : List Char
  exp : List Char

/-- How an exponent begins, longest first. -/
def marks : List (List Char) := [['e', '+'], ['e', '-'], ['E', '+'], ['E', '-'], ['e'], ['E']]

namespace Numeral

/-- The characters of a numeral: its sign, its whole part, its fraction and its exponent. -/
def text (n : Numeral) : List Char :=
  (if n.negative then ['-'] else []) ++ (n.whole ++ ((if n.frac = [] then [] else '.' :: n.frac) ++
    (n.mark ++ n.exp)))

/-- A numeral of JSON: its whole part has no leading zero, and an exponent has digits. -/
structure WellFormed (n : Numeral) : Prop where
  whole : n.whole = ['0'] ∨ (n.whole ≠ [] ∧ n.whole.head? ≠ some '0')
  wholeDigits : ∀ c ∈ n.whole, c.isDigit = true
  fracDigits : ∀ c ∈ n.frac, c.isDigit = true
  mark : (n.mark = [] ∧ n.exp = []) ∨ (n.mark ∈ marks ∧ n.exp ≠ [])
  expDigits : ∀ c ∈ n.exp, c.isDigit = true

/-- A numeral without point and exponent, which Python reads as an `int`. -/
def isInt (n : Numeral) : Bool := n.frac.isEmpty && n.mark.isEmpty

/-- The numeral of `str(n)`, in decimal and without leading zeros. -/
def ofInt (n : ℤ) : Numeral := ⟨decide (n < 0), Nat.toDigits 10 n.natAbs, [], [], []⟩

end Numeral

/-- The text of a float, if it is one. -/
def floatText? (text : List Char) : Option FloatText :=
  if h : (text.all fun c => c.isAlphanum || c == '+' || c == '-' || c == '.') = true then
    some ⟨text, by simpa [or_assoc] using h⟩
  else none

/-- What a numeral stands for. A float is kept as it is written. -/
def Numeral.value (n : Numeral) : Option PyValue :=
  if n.isInt then
    some (.int (if n.negative then -(Nat.ofDigitChars 10 n.whole 0 : ℤ)
      else Nat.ofDigitChars 10 n.whole 0))
  else (floatText? n.text).map .float

/-- The digits that a text begins with, and the rest. -/
def scanDigits (text : List Char) : List Char × List Char :=
  (text.takeWhile Char.isDigit, text.dropWhile Char.isDigit)

/-- The whole part of a numeral: a zero, or digits of which the first is none. -/
def scanWhole (text : List Char) : Option (List Char × List Char) :=
  if text.head? = some '0' then some (['0'], text.tail)
  else if (scanDigits text).1 = [] then none
  else some (scanDigits text)

/-- The fraction of a numeral, if there are digits after the point. -/
def scanFrac (text : List Char) : List Char × List Char :=
  if text.head? = some '.' ∧ (scanDigits text.tail).1 ≠ [] then scanDigits text.tail else ([], text)

/-- The exponent of a numeral, if there are digits after its mark. -/
def scanExp (text : List Char) : List Char × List Char × List Char :=
  match marks.find? (fun mark =>
    mark.isPrefixOf text ∧ (scanDigits (text.drop mark.length)).1 ≠ []) with
  | some mark => (mark, scanDigits (text.drop mark.length))
  | none => ([], [], text)

/-- The sign of a numeral. -/
def scanSign (text : List Char) : Bool × List Char :=
  if text.head? = some '-' then (true, text.tail) else (false, text)

/-- `_match_number`: the longest numeral that a text begins with. -/
def scanNumeral (text : List Char) : Option (Numeral × List Char) :=
  (scanWhole (scanSign text).2).map fun whole =>
    let frac := scanFrac whole.2
    let exp := scanExp frac.2
    (⟨(scanSign text).1, whole.1, frac.1, exp.1, exp.2.1⟩, exp.2.2)

/-- A text after which a number ends. -/
def Stops (text : List Char) : Prop :=
  ∀ c, text.head? = some c → c.isDigit = false ∧ c ∉ ['.', 'e', 'E']

/-- Digits are read as far as they go, and what follows them is left. -/
theorem scanDigits_append {ds rest : List Char} (hds : ∀ c ∈ ds, c.isDigit = true)
    (hrest : ∀ c, rest.head? = some c → c.isDigit = false) :
    scanDigits (ds ++ rest) = (ds, rest) := by
  have htake : rest.takeWhile Char.isDigit = [] ∧ rest.dropWhile Char.isDigit = rest := by
    cases rest with
    | nil => exact ⟨rfl, rfl⟩
    | cons c rest => simp [hrest c rfl]
  rw [scanDigits, List.takeWhile_append_of_pos hds, List.dropWhile_append_of_pos hds, htake.1,
    htake.2, List.append_nil]

/-- The mark of an exponent starts with neither a digit nor the point, so both stop before it. -/
theorem isDigit_of_mem_marks {mark : List Char} (h : mark ∈ marks) :
    ∃ c ∈ mark.head?, c.isDigit = false ∧ c ≠ '.' := by
  simp only [marks, List.mem_cons, List.not_mem_nil, or_false] at h
  rcases h with rfl | rfl | rfl | rfl | rfl | rfl <;> exact ⟨_, rfl, by decide, by decide⟩

/-- The mark that a text begins with is found, as the digits come right after it. -/
theorem scanExp_append {mark ds rest : List Char} (hmark : mark ∈ marks) (hne : ds ≠ [])
    (hds : ∀ c ∈ ds, c.isDigit = true) (hrest : Stops rest) :
    scanExp (mark ++ (ds ++ rest)) = (mark, ds, rest) := by
  have hdigits : scanDigits (ds ++ rest) = (ds, rest) :=
    scanDigits_append hds (fun c hc => (hrest c hc).1)
  obtain ⟨d, ds', rfl⟩ := List.exists_cons_of_ne_nil hne
  have hd : d.isDigit = true := hds d (by simp)
  have hplus : '+' ≠ d := by
    rintro rfl
    cases hd
  have hminus : '-' ≠ d := by
    rintro rfl
    cases hd
  have hfind : marks.find? (fun mark' => mark'.isPrefixOf (mark ++ (d :: ds' ++ rest)) ∧
      (scanDigits ((mark ++ (d :: ds' ++ rest)).drop mark'.length)).1 ≠ []) = some mark := by
    simp only [marks, List.mem_cons, List.not_mem_nil, or_false] at hmark
    rcases hmark with rfl | rfl | rfl | rfl | rfl | rfl <;>
      simp [marks, List.find?, scanDigits, hd, hplus, hminus]
  rw [scanExp, hfind]
  simp only [List.drop_left, hdigits]

/-- A text that stops a numeral has no exponent at its head. -/
theorem scanExp_of_stops {rest : List Char} (hrest : Stops rest) :
    scanExp rest = ([], [], rest) := by
  have hnone : marks.find? (fun mark => mark.isPrefixOf rest ∧
      (scanDigits (rest.drop mark.length)).1 ≠ []) = none := by
    cases rest with
    | nil => simp [marks]
    | cons c rest =>
      have hc := (hrest c rfl).2
      simp only [List.mem_cons, List.not_mem_nil, or_false, not_or] at hc
      simp [marks, Ne.symm hc.2.1, Ne.symm hc.2.2]
  rw [scanExp, hnone]

namespace Numeral

variable {n : Numeral} {rest : List Char}

/-- The exponent of a numeral is read back. -/
theorem WellFormed.scanExp (h : n.WellFormed) (hrest : Stops rest) :
    JsonText.scanExp (n.mark ++ (n.exp ++ rest)) = (n.mark, n.exp, rest) := by
  rcases h.mark with ⟨hmark, hexp⟩ | ⟨hmark, hne⟩
  · rw [hmark, hexp]
    exact scanExp_of_stops hrest
  · exact scanExp_append hmark hne h.expDigits hrest

/-- No digit and no point comes where the exponent begins. -/
theorem WellFormed.head_exp (h : n.WellFormed) (hrest : Stops rest) {c : Char}
    (hc : (n.mark ++ (n.exp ++ rest)).head? = some c) : c.isDigit = false ∧ c ≠ '.' := by
  rcases h.mark with ⟨hmark, hexp⟩ | ⟨hmark, -⟩
  · rw [hmark, hexp] at hc
    obtain ⟨hdigit, hother⟩ := hrest c hc
    exact ⟨hdigit, fun heq => hother (by simp [heq])⟩
  · obtain ⟨d, hd, hno⟩ := isDigit_of_mem_marks hmark
    rw [List.head?_append, Option.mem_def.mp hd, Option.some_or] at hc
    exact Option.some.inj hc ▸ hno

/-- The fraction of a numeral is read back. -/
theorem WellFormed.scanFrac (h : n.WellFormed) (hrest : Stops rest) :
    JsonText.scanFrac ((if n.frac = [] then [] else '.' :: n.frac) ++
      (n.mark ++ (n.exp ++ rest))) = (n.frac, n.mark ++ (n.exp ++ rest)) := by
  have hhead {c : Char} (hc : (n.mark ++ (n.exp ++ rest)).head? = some c) := h.head_exp hrest hc
  by_cases hfrac : n.frac = []
  · have hpoint : (n.mark ++ (n.exp ++ rest)).head? ≠ some '.' := fun hc => (hhead hc).2 rfl
    rw [if_pos hfrac, List.nil_append, JsonText.scanFrac, if_neg (fun hboth => hpoint hboth.1),
      hfrac]
  · have hdigits := scanDigits_append h.fracDigits (fun c hc => (hhead hc).1)
    rw [if_neg hfrac, List.cons_append, JsonText.scanFrac, List.tail_cons, hdigits]
    exact if_pos ⟨rfl, hfrac⟩

/-- The whole part of a numeral is read back. -/
theorem WellFormed.scanWhole (h : n.WellFormed) {rest : List Char}
    (hrest : ∀ c, rest.head? = some c → c.isDigit = false) :
    JsonText.scanWhole (n.whole ++ rest) = some (n.whole, rest) := by
  rcases h.whole with hzero | ⟨hne, hhead⟩
  · rw [hzero]
    rfl
  · have hdigits := scanDigits_append h.wholeDigits hrest
    have hhead' : (n.whole ++ rest).head? ≠ some '0' := by
      rwa [List.head?_append_of_ne_nil _ hne]
    rw [JsonText.scanWhole, if_neg hhead', hdigits, if_neg hne]

/-- A numeral has at least one digit, since JSON writes zero as `0`. -/
theorem WellFormed.whole_ne_nil (h : n.WellFormed) : n.whole ≠ [] := by
  rcases h.whole with hzero | ⟨hne, -⟩
  · simp [hzero]
  · exact hne

/-- A numeral begins with its sign, if it has one, and a digit. -/
theorem WellFormed.scanSign (h : n.WellFormed) (rest : List Char) :
    JsonText.scanSign ((if n.negative then ['-'] else []) ++ (n.whole ++ rest)) =
      (n.negative, n.whole ++ rest) := by
  have hfirst : (n.whole ++ rest).head? ≠ some '-' := by
    rw [List.head?_append_of_ne_nil _ h.whole_ne_nil]
    intro hminus
    cases h.wholeDigits _ (List.mem_of_mem_head? hminus)
  cases hsign : n.negative with
  | true => rfl
  | false => exact if_neg hfirst

/-- A numeral is read back, up to the character that stops it. -/
theorem WellFormed.scanNumeral (h : n.WellFormed) (hrest : Stops rest) :
    JsonText.scanNumeral (n.text ++ rest) = some (n, rest) := by
  have hafter : ∀ c, ((if n.frac = [] then [] else '.' :: n.frac) ++
      (n.mark ++ (n.exp ++ rest))).head? = some c → c.isDigit = false := by
    intro c hc
    by_cases hfrac : n.frac = []
    · rw [if_pos hfrac, List.nil_append] at hc
      exact (h.head_exp hrest hc).1
    · rw [if_neg hfrac] at hc
      rw [← Option.some.inj hc]
      rfl
  have htext : n.text ++ rest = (if n.negative then ['-'] else []) ++ (n.whole ++
      ((if n.frac = [] then [] else '.' :: n.frac) ++ (n.mark ++ (n.exp ++ rest)))) := by
    simp only [text, List.append_assoc]
  rw [htext, JsonText.scanNumeral, h.scanSign, h.scanWhole hafter, Option.map_some]
  simp only [h.scanFrac hrest, h.scanExp hrest]

/-- The decimal digits of a number have no leading zero. -/
theorem head_toDigits (m : ℕ) :
    Nat.toDigits 10 m = ['0'] ∨ (Nat.toDigits 10 m).head? ≠ some '0' := by
  induction m using Nat.strongRecOn with
  | ind m ih =>
    by_cases hlt : m < 10
    · rw [Nat.toDigits_of_lt_base hlt]
      have hdigit : ∀ d < 10, [Nat.digitChar d] = ['0'] ∨ [Nat.digitChar d].head? ≠ some '0' := by
        decide
      exact hdigit m hlt
    · rw [Nat.toDigits_of_base_le (by decide) (Nat.le_of_not_lt hlt),
        List.head?_append_of_ne_nil _ Nat.toDigits_ne_nil]
      right
      rcases ih (m / 10) (by omega) with hzero | hhead
      · have hval := congrArg (fun ds => Nat.ofDigitChars 10 ds 0) hzero
        simp only [Nat.ofDigitChars_ten_toDigits] at hval
        have hone : Nat.ofDigitChars 10 ['0'] 0 = 0 := rfl
        omega
      · exact hhead

/-- An integer is written as its sign and its digits, without point and exponent. -/
theorem wellFormed_ofInt (i : ℤ) : (ofInt i).WellFormed where
  whole := (head_toDigits i.natAbs).imp id (fun h => ⟨Nat.toDigits_ne_nil, h⟩)
  wholeDigits _ h := Nat.isDigit_of_mem_toDigits (by decide) (by decide) h
  fracDigits := by simp [ofInt]
  mark := .inl ⟨rfl, rfl⟩
  expDigits := by simp [ofInt]

/-- `str(n)` is the numeral of the integer. -/
theorem text_ofInt (i : ℤ) : (ofInt i).text = (toString i).toList := by
  rw [Int.toString_eq_repr, Int.repr_eq_if]
  by_cases hpos : 0 ≤ i
  · have habs : i.natAbs = i.toNat := by omega
    rw [if_pos hpos, Nat.toList_repr]
    simp [text, ofInt, habs, hpos]
  · have habs : i.natAbs = (-i).toNat := by omega
    have hneg : i < 0 := by omega
    rw [if_neg hpos, String.toList_append, Nat.toList_repr]
    simp [text, ofInt, habs, hneg]

/-- The numeral of an integer is read back as the same integer, not as a float. -/
theorem value_ofInt (i : ℤ) : (ofInt i).value = some (.int i) := by
  have hint : (ofInt i).isInt = true := rfl
  rw [value, if_pos hint]
  simp only [ofInt, Nat.ofDigitChars_ten_toDigits, Option.some.injEq, PyValue.int.injEq]
  split
  · rename_i hneg
    simp at hneg
    omega
  · rename_i hpos
    simp at hpos
    omega

end Numeral

/-! ## Values -/

/-- The words of JSON and what they stand for. -/
def literals : List (List Char × PyValue) :=
  [(['n', 'u', 'l', 'l'], .none), (['t', 'r', 'u', 'e'], .bool true),
    (['f', 'a', 'l', 's', 'e'], .bool false),
    (['N', 'a', 'N'], .float ⟨['N', 'a', 'N'], by simp⟩),
    (['I', 'n', 'f', 'i', 'n', 'i', 't', 'y'],
      .float ⟨['I', 'n', 'f', 'i', 'n', 'i', 't', 'y'], by simp⟩),
    (['-', 'I', 'n', 'f', 'i', 'n', 'i', 't', 'y'],
      .float ⟨['-', 'I', 'n', 'f', 'i', 'n', 'i', 't', 'y'], by simp⟩)]

/-- A literal that a text begins with. -/
def readLiteral (text : List Char) : Option (PyValue × List Char) :=
  (literals.find? (fun entry => entry.1.isPrefixOf text)).map
    (fun entry => (entry.2, text.drop entry.1.length))

/-- A value that is no string, list or dict. -/
def readScalar (text : List Char) : Option (PyValue × List Char) :=
  (readLiteral text).or
    ((scanNumeral text).bind fun n => n.1.value.map fun v => (v, n.2))

/-- `dict[key] = value`, which keeps the place of a key that is there. -/
def setItem (items : List (PyStr × PyValue)) (item : PyStr × PyValue) : List (PyStr × PyValue) :=
  if item.1 ∈ items.map Prod.fst then
    items.map (fun old => if old.1 = item.1 then item else old)
  else items ++ [item]

/-- `dict(pairs)`, in which the last pair of a key gives its value. -/
def dictOf (pairs : List (PyStr × PyValue)) : List (PyStr × PyValue) := pairs.foldl setItem []

mutual

/-- `scan_once`: one value at the head of a text, and the rest of the text. -/
def readValue : ℕ → List Char → Option (PyValue × List Char)
  | 0, _ => none
  | _ + 1, [] => none
  | fuel + 1, c :: rest =>
    if c = '"' then (scanString fuel rest).map fun s => (.str s.1, s.2)
    else if c = '[' then
      if (skipBlanks rest).head? = some ']' then some (.list [], (skipBlanks rest).tail)
      else (readElements fuel (skipBlanks rest)).map fun xs => (.list xs.1, xs.2)
    else if c = '{' then
      if (skipBlanks rest).head? = some '}' then some (.dict [], (skipBlanks rest).tail)
      else (readItems fuel (skipBlanks rest)).map fun pairs => (.dict (dictOf pairs.1), pairs.2)
    else readScalar (c :: rest)

/-- The elements of a list, up to its bracket. -/
def readElements : ℕ → List Char → Option (List PyValue × List Char)
  | 0, _ => none
  | fuel + 1, text =>
    (readValue fuel text).bind fun x =>
      if (skipBlanks x.2).head? = some ',' then
        (readElements fuel (skipBlanks (skipBlanks x.2).tail)).map fun xs => (x.1 :: xs.1, xs.2)
      else if (skipBlanks x.2).head? = some ']' then some ([x.1], (skipBlanks x.2).tail)
      else none

/-- The items of a dict, up to its brace. -/
def readItems : ℕ → List Char → Option (List (PyStr × PyValue) × List Char)
  | 0, _ => none
  | fuel + 1, text =>
    if text.head? = some '"' then
      (scanString fuel text.tail).bind fun k =>
        if (skipBlanks k.2).head? = some ':' then
          (readValue fuel (skipBlanks (skipBlanks k.2).tail)).bind fun v =>
            if (skipBlanks v.2).head? = some ',' then
              (readItems fuel (skipBlanks (skipBlanks v.2).tail)).map fun pairs =>
                ((k.1, v.1) :: pairs.1, pairs.2)
            else if (skipBlanks v.2).head? = some '}' then
              some ([(k.1, v.1)], (skipBlanks v.2).tail)
            else none
        else none
    else none

end

/-- `json.loads(text)`, or `none` for the `ValueError` that it raises. -/
def loads (text : List Char) : Option PyValue :=
  (readValue text.length (skipBlanks text)).bind fun v =>
    if skipBlanks v.2 = [] then some v.1 else none

/-! ## Texts of values -/

/-- What `json.dumps` writes for a float can be read: `NaN`, an infinity, or a numeral with a point
or an exponent. -/
def FloatReadable (x : FloatText) : Prop :=
  x.text ∈ ["NaN".toList, "Infinity".toList, "-Infinity".toList] ∨
    ∃ n : Numeral, n.WellFormed ∧ n.isInt = false ∧ n.text = x.text

mutual

/-- A value that is read back from its text: its strings hold no high surrogate, and its dicts
name every key once. -/
def Readable : PyValue → Prop
  | .none | .bool _ | .int _ => True
  | .float x => FloatReadable x
  | .str s => ∀ p ∈ s, p.isHigh = false
  | .list xs => ReadableList xs
  | .dict items => (items.map Prod.fst).Nodup ∧ ReadableItems items

/-- All the elements of a list are readable. -/
def ReadableList : List PyValue → Prop
  | [] => True
  | x :: xs => Readable x ∧ ReadableList xs

/-- All the pairs of a dict are readable. -/
def ReadableItems : List (PyStr × PyValue) → Prop
  | [] => True
  | (k, v) :: items => (∀ p ∈ k, p.isHigh = false) ∧ Readable v ∧ ReadableItems items

end

/-- A text that begins with none of the four blanks of JSON is left as it is. -/
theorem skipBlanks_of_head {text : List Char} (h : ∀ c ∈ text.head?, c ∉ [' ', '\t', '\n', '\r']) :
    skipBlanks text = text := by
  cases text with
  | nil => rfl
  | cons c text =>
    have hc := h c rfl
    simp only [skipBlanks, List.dropWhile_cons, decide_eq_true_eq, if_neg hc]

/-- A pair with a new key is put at the end, which is the order of a Python dict. -/
theorem setItem_of_not_mem {items : List (PyStr × PyValue)} {item : PyStr × PyValue}
    (h : item.1 ∉ items.map Prod.fst) : setItem items item = items ++ [item] := if_neg h

/-- `dict(pairs)` of pairs with distinct keys keeps every pair in its place. -/
theorem dictOf_of_nodup {pairs : List (PyStr × PyValue)} (h : (pairs.map Prod.fst).Nodup) :
    dictOf pairs = pairs := by
  induction pairs using List.reverseRecOn with
  | nil => rfl
  | append_singleton pairs pair ih =>
    rw [List.map_append, List.nodup_append] at h
    have hnew : pair.1 ∉ pairs.map Prod.fst := fun hmem => h.2.2 _ hmem pair.1 (by simp) rfl
    rw [dictOf, List.foldl_append, List.foldl_cons, List.foldl_nil]
    change setItem (dictOf pairs) pair = pairs ++ [pair]
    rw [ih h.1, setItem_of_not_mem hnew]

/-- A literal is read back, whatever comes after it. -/
theorem readLiteral_append {entry : List Char × PyValue} (h : entry ∈ literals)
    (rest : List Char) : readLiteral (entry.1 ++ rest) = some (entry.2, rest) := by
  simp only [literals, List.mem_cons, List.not_mem_nil, or_false] at h
  rcases h with rfl | rfl | rfl | rfl | rfl | rfl <;> rfl

/-- No literal begins like a numeral, so numerals are left to `_match_number`. -/
theorem readLiteral_of_numeral {n : Numeral} (h : n.WellFormed) (rest : List Char) :
    readLiteral (n.text ++ rest) = none := by
  obtain ⟨d, ds, hwhole⟩ := List.exists_cons_of_ne_nil h.whole_ne_nil
  have hdigit : d.isDigit = true := h.wholeDigits d (by simp [hwhole])
  have hother : ∀ c, c.isDigit = false → c ≠ d := by
    rintro c hc rfl
    rw [hdigit] at hc
    cases hc
  have hn := hother 'n' rfl
  have ht := hother 't' rfl
  have hf := hother 'f' rfl
  have hN := hother 'N' rfl
  have hI := hother 'I' rfl
  have hminus := hother '-' rfl
  cases hsign : n.negative <;>
    simp [readLiteral, literals, Numeral.text, hsign, hwhole, hn, ht, hf, hN, hI, hminus]

/-- A well-formed numeral is read as its value, up to the text that stops it. -/
theorem readScalar_of_numeral {n : Numeral} {v : PyValue} (h : n.WellFormed)
    (hvalue : n.value = some v) {rest : List Char} (hrest : Stops rest) :
    readScalar (n.text ++ rest) = some (v, rest) := by
  rw [readScalar, readLiteral_of_numeral h, Option.none_or, h.scanNumeral hrest,
    Option.bind_some, hvalue, Option.map_some]

/-- So is one of the literals, `true`, `false`, `null` and those of the floats that are no
numbers. -/
theorem readScalar_of_literal {entry : List Char × PyValue} (h : entry ∈ literals)
    (rest : List Char) : readScalar (entry.1 ++ rest) = some (entry.2, rest) := by
  rw [readScalar, readLiteral_append h, Option.some_or]

/-- A text that opens no string, list or object holds a scalar. -/
theorem readValue_of_head {fuel : ℕ} {text : List Char} {c : Char} (hc : c ∈ text.head?)
    (hno : c ∉ ['"', '[', '{']) : readValue (fuel + 1) text = readScalar text := by
  cases text with
  | nil => cases hc
  | cons d text =>
    cases hc
    simp only [List.mem_cons, List.not_mem_nil, or_false, not_or] at hno
    rw [readValue, if_neg hno.1, if_neg hno.2.1, if_neg hno.2.2]

/-! ## Values are read back -/

/-- The text of a value begins it, and the value is read from it whatever stops it. -/
structure ReadsBack (v : PyValue) : Prop where
  head : ∃ c ∈ (dumps v).head?, c ∉ [' ', '\t', '\n', '\r', ']', '}']
  read : ∀ {fuel : ℕ} {rest : List Char}, (dumps v).length ≤ fuel → Stops rest →
    readValue fuel (dumps v ++ rest) = some (v, rest)

variable {v : PyValue} {rest : List Char}

namespace ReadsBack

/-- No blank stands before a value that the encoder wrote. -/
theorem skipBlanks_append (h : ReadsBack v) (rest : List Char) :
    skipBlanks (dumps v ++ rest) = dumps v ++ rest := by
  obtain ⟨c, hc, hno⟩ := h.head
  apply skipBlanks_of_head
  intro d hd
  rw [List.head?_append, Option.mem_def.mp hc, Option.some_or] at hd
  cases hd
  intro hmem
  exact hno (List.mem_append_left [']', '}'] hmem)

/-- A value does not begin with a closing bracket, so a list or an object with a first element is
not taken for an empty one. -/
theorem head?_ne (h : ReadsBack v) (rest : List Char) :
    (dumps v ++ rest).head? ≠ some ']' ∧ (dumps v ++ rest).head? ≠ some '}' := by
  obtain ⟨c, hc, hno⟩ := h.head
  rw [List.head?_append, Option.mem_def.mp hc, Option.some_or]
  constructor <;> rintro ⟨⟩ <;> simp at hno

/-- A scalar is read back if the scalar reader reads it. -/
theorem of_scalar {c : Char} (hc : c ∈ (dumps v).head?)
    (hno : c ∉ [' ', '\t', '\n', '\r', ']', '}', '"', '[', '{'])
    (hread : ∀ rest, Stops rest → readScalar (dumps v ++ rest) = some (v, rest)) :
    ReadsBack v where
  head := ⟨c, hc, fun hmem => hno (List.mem_append_left ['"', '[', '{'] hmem)⟩
  read := by
    intro fuel rest hfuel hrest
    cases fuel with
    | zero =>
      rw [List.eq_nil_of_length_eq_zero (Nat.le_zero.mp hfuel)] at hc
      cases hc
    | succ fuel =>
      have hhead : c ∈ (dumps v ++ rest).head? := by
        rw [List.head?_append, Option.mem_def.mp hc, Option.some_or]
        rfl
      rw [readValue_of_head hhead (fun hmem => hno (by simp at hmem ⊢; tauto)), hread rest hrest]

/-- The literals are read back. -/
theorem of_literal (h : (dumps v, v) ∈ literals) : ReadsBack v := by
  have hhead : ∀ entry ∈ literals, ∃ c ∈ entry.1.head?,
      c ∉ [' ', '\t', '\n', '\r', ']', '}', '"', '[', '{'] := by
    intro entry hentry
    simp only [literals, List.mem_cons, List.not_mem_nil, or_false] at hentry
    rcases hentry with rfl | rfl | rfl | rfl | rfl | rfl <;> exact ⟨_, rfl, by decide⟩
  obtain ⟨c, hc, hno⟩ := hhead _ h
  exact of_scalar hc hno (fun rest _ => readScalar_of_literal h rest)

/-- A value that the encoder writes as a well-formed numeral of this value is read back. -/
theorem of_numeral {n : Numeral} (h : n.WellFormed) (hvalue : n.value = some v)
    (hdumps : dumps v = n.text) : ReadsBack v := by
  have hhead : ∃ c ∈ n.text.head?, c = '-' ∨ c.isDigit = true := by
    obtain ⟨d, ds, hwhole⟩ := List.exists_cons_of_ne_nil h.whole_ne_nil
    cases hsign : n.negative with
    | true => exact ⟨'-', by simp [Numeral.text, hsign], .inl rfl⟩
    | false =>
      exact ⟨d, by simp [Numeral.text, hsign, hwhole], .inr (h.wholeDigits d (by simp [hwhole]))⟩
  obtain ⟨c, hc, hkind⟩ := hhead
  refine of_scalar (hdumps ▸ hc) ?_ (fun rest hrest => ?_)
  · intro hmem
    rcases hkind with rfl | hdigit
    · simp at hmem
    · simp only [List.mem_cons, List.not_mem_nil, or_false] at hmem
      rcases hmem with rfl | rfl | rfl | rfl | rfl | rfl | rfl | rfl | rfl <;> cases hdigit
  · rw [hdumps]
    exact readScalar_of_numeral h hvalue hrest

/-- Integers of any size are read back. -/
theorem of_int (i : ℤ) : ReadsBack (.int i) :=
  of_numeral (Numeral.wellFormed_ofInt i) (Numeral.value_ofInt i)
    (by rw [dumps, Numeral.text_ofInt])

/-- So are floats, from the shortest text that determines them. -/
theorem of_float {x : FloatText} (h : FloatReadable x) : ReadsBack (.float x) := by
  rcases h with hword | ⟨n, hn, hint, htext⟩
  · obtain ⟨text, plain⟩ := x
    simp only [List.mem_cons, List.not_mem_nil, or_false] at hword
    apply of_literal
    rw [dumps]
    rcases hword with rfl | rfl | rfl <;> simp [literals]
  · have hvalue : n.value = some (.float x) := by
      have hplain : floatText? n.text = some x := by
        have hall : (x.text.all fun c => c.isAlphanum || c == '+' || c == '-' || c == '.') =
            true := by simpa [or_assoc] using x.plain
        rw [htext, floatText?, dif_pos hall]
      rw [Numeral.value, if_neg (by simp [hint]), hplain, Option.map_some]
    exact of_numeral hn hvalue (by rw [dumps, htext])

/-- Escaping never makes a string shorter, which bounds the fuel that reading it takes. -/
theorem length_le_flatMap (s : PyStr) : s.length ≤ (s.flatMap escapeChar).length := by
  induction s with
  | nil => rfl
  | cons p s ih =>
    obtain ⟨c, rest, hp, -⟩ := escapeChar_eq_cons p
    rw [List.flatMap_cons, List.length_append, hp, List.length_cons, List.length_cons]
    omega

/-- Strings without a high surrogate are read back, character by character. -/
theorem of_str {s : PyStr} (hs : ∀ p ∈ s, p.isHigh = false) : ReadsBack (.str s) where
  head := ⟨'"', by rw [dumps]; rfl, by decide⟩
  read := by
    intro fuel rest hfuel _
    have hlen := length_le_flatMap s
    simp only [dumps, quote, List.cons_append, List.length_cons, List.length_append,
      List.length_nil] at hfuel
    obtain ⟨fuel, rfl⟩ := Nat.exists_eq_add_of_le' (Nat.le_of_add_left_le hfuel)
    have hread := scanString_quote hs (by omega : s.length < fuel) rest
    simp only [dumps, quote, List.cons_append, List.append_assoc, List.nil_append, readValue,
      if_true, hread, Option.map_some]

end ReadsBack

/-- A comma or a bracket ends a number. -/
theorem stops_cons {c : Char} (h : c ∈ [',', ']', '}']) (rest : List Char) : Stops (c :: rest) := by
  rintro d ⟨⟩
  simp only [List.mem_cons, List.not_mem_nil, or_false] at h
  rcases h with rfl | rfl | rfl <;> exact ⟨rfl, by simp⟩

/-- One blank more at the head is skipped as well. -/
theorem skipBlanks_space {text : List Char} (h : skipBlanks text = text) :
    skipBlanks (' ' :: text) = text := by
  have hspace : skipBlanks (' ' :: text) = skipBlanks text := by simp [skipBlanks]
  rw [hspace, h]

/-- The last element of a list is followed by the closing bracket. -/
theorem readElements_close {x : PyValue} {fuel : ℕ} {text rest : List Char}
    (hread : readValue fuel text = some (x, ']' :: rest)) :
    readElements (fuel + 1) text = some ([x], rest) := by
  rw [readElements, hread, Option.bind_some]
  simp [skipBlanks]

/-- Another element is followed by a comma and a blank, and then by the elements that are left. -/
theorem readElements_comma {x : PyValue} {fuel : ℕ} {text more : List Char}
    (hread : readValue fuel text = some (x, ',' :: ' ' :: more))
    (hmore : skipBlanks more = more) :
    readElements (fuel + 1) text =
      (readElements fuel more).map (fun xs => (x :: xs.1, xs.2)) := by
  have hcomma : skipBlanks (',' :: ' ' :: more) = ',' :: ' ' :: more := by simp [skipBlanks]
  rw [readElements, hread, Option.bind_some]
  simp only [hcomma, List.head?_cons, if_true, List.tail_cons, skipBlanks_space hmore]

/-- The elements of a list are read back, by induction on the ones after the first. -/
theorem readElements_append {x : PyValue} {xs : List PyValue} (hx : ReadsBack x)
    (hxs : ∀ x ∈ xs, ReadsBack x) {fuel : ℕ}
    (hfuel : (dumps x).length + (dumpsList xs).length < fuel) (rest : List Char) :
    readElements fuel (dumps x ++ (dumpsList xs ++ ']' :: rest)) = some (x :: xs, rest) := by
  induction xs generalizing x fuel with
  | nil =>
    obtain ⟨fuel, rfl⟩ := Nat.exists_eq_succ_of_ne_zero (Nat.ne_zero_of_lt hfuel)
    rw [dumpsList, List.nil_append]
    exact readElements_close (hx.read (by omega) (stops_cons (by simp) rest))
  | cons y ys ih =>
    obtain ⟨fuel, rfl⟩ := Nat.exists_eq_succ_of_ne_zero (Nat.ne_zero_of_lt hfuel)
    have hy := hxs y (by simp)
    have hsplit : dumpsList (y :: ys) ++ ']' :: rest =
        ',' :: ' ' :: (dumps y ++ (dumpsList ys ++ ']' :: rest)) := by
      simp [dumpsList]
    have hlen : (dumpsList (y :: ys)).length = (dumps y).length + (dumpsList ys).length + 2 := by
      simp [dumpsList]
    have hread : readValue fuel (dumps x ++ (dumpsList (y :: ys) ++ ']' :: rest)) =
        some (x, dumpsList (y :: ys) ++ ']' :: rest) := by
      rw [hsplit]
      exact hx.read (by omega) (stops_cons (by simp) _)
    have hmore := ih hy (fun z hz => hxs z (by simp [hz])) (by omega : _ < fuel)
    rw [hsplit] at hread ⊢
    rw [readElements_comma hread (hy.skipBlanks_append _), hmore, Option.map_some]

/-- A pair of an object is its key, a colon and a blank, and its value; what comes next decides
whether there are more pairs. -/
theorem readItems_quote {k : PyStr} {v : PyValue} {fuel : ℕ} {text : List Char}
    (hk : ∀ p ∈ k, p.isHigh = false) (hv : ReadsBack v) (hfuel : (quote k).length ≤ fuel)
    (hlen : (dumps v).length ≤ fuel) (hstop : Stops text) :
    readItems (fuel + 1) (quote k ++ (':' :: ' ' :: (dumps v ++ text))) =
      if (skipBlanks text).head? = some ',' then
        (readItems fuel (skipBlanks (skipBlanks text).tail)).map fun pairs =>
          ((k, v) :: pairs.1, pairs.2)
      else if (skipBlanks text).head? = some '}' then some ([(k, v)], (skipBlanks text).tail)
      else none := by
  have hbody := ReadsBack.length_le_flatMap k
  have hquote : (quote k).length = (k.flatMap escapeChar).length + 2 := by simp [quote]
  have htext : quote k ++ (':' :: ' ' :: (dumps v ++ text)) =
      '"' :: (k.flatMap escapeChar ++ '"' :: ':' :: ' ' :: (dumps v ++ text)) := by
    simp [quote]
  have hcolon : skipBlanks (':' :: ' ' :: (dumps v ++ text)) = ':' :: ' ' :: (dumps v ++ text) := by
    simp [skipBlanks]
  rw [htext, readItems, List.head?_cons, if_pos rfl, List.tail_cons,
    scanString_quote hk (by omega), Option.bind_some]
  simp only [hcolon, List.head?_cons, if_true, List.tail_cons,
    skipBlanks_space (hv.skipBlanks_append text), hv.read hlen hstop, Option.bind_some]

/-- The items of a dict are read back, by induction on the ones after the first. -/
theorem readItems_append {k : PyStr} {v : PyValue} {items : List (PyStr × PyValue)}
    (hk : ∀ p ∈ k, p.isHigh = false) (hv : ReadsBack v)
    (hitems : ∀ item ∈ items, (∀ p ∈ item.1, p.isHigh = false) ∧ ReadsBack item.2) {fuel : ℕ}
    (hfuel : (quote k).length + (dumps v).length + (dumpsItems items).length < fuel)
    (rest : List Char) :
    readItems fuel (quote k ++ (':' :: ' ' :: (dumps v ++ (dumpsItems items ++ '}' :: rest)))) =
      some ((k, v) :: items, rest) := by
  induction items generalizing k v fuel with
  | nil =>
    obtain ⟨fuel, rfl⟩ := Nat.exists_eq_succ_of_ne_zero (Nat.ne_zero_of_lt hfuel)
    rw [dumpsItems, List.nil_append, readItems_quote hk hv (by omega) (by omega)
      (stops_cons (by simp) rest)]
    simp [skipBlanks]
  | cons item items ih =>
    obtain ⟨fuel, rfl⟩ := Nat.exists_eq_succ_of_ne_zero (Nat.ne_zero_of_lt hfuel)
    obtain ⟨hkey, hvalue⟩ := hitems item (by simp)
    have hsplit : dumpsItems (item :: items) ++ '}' :: rest = ',' :: ' ' :: (quote item.1 ++
        (':' :: ' ' :: (dumps item.2 ++ (dumpsItems items ++ '}' :: rest)))) := by
      simp [dumpsItems]
    have hlen : (dumpsItems (item :: items)).length =
        (quote item.1).length + (dumps item.2).length + (dumpsItems items).length + 4 := by
      simp [dumpsItems]
      omega
    have hmore := ih hkey hvalue (fun z hz => hitems z (by simp [hz])) (by omega : _ < fuel)
    have hcomma (text : List Char) : skipBlanks (',' :: text) = ',' :: text := by simp [skipBlanks]
    have hquote (text : List Char) : skipBlanks (' ' :: (quote item.1 ++ text)) =
        quote item.1 ++ text := by simp [quote, skipBlanks]
    rw [hsplit, readItems_quote hk hv (by omega) (by omega) (stops_cons (by simp) _), hcomma,
      List.head?_cons, if_pos rfl, List.tail_cons, hquote, hmore, Option.map_some]

namespace ReadsBack

/-- Lists are read back when their elements are. -/
theorem of_list {xs : List PyValue} (hxs : ∀ x ∈ xs, ReadsBack x) : ReadsBack (.list xs) where
  head := by
    cases xs with
    | nil => exact ⟨'[', by simp [dumps], by decide⟩
    | cons x xs => exact ⟨'[', by simp [dumps], by decide⟩
  read := by
    intro fuel rest hfuel _
    cases xs with
    | nil =>
      have hlen : (dumps (.list [])).length = 2 := by simp [dumps]
      obtain ⟨fuel, rfl⟩ := Nat.exists_eq_succ_of_ne_zero (by omega : fuel ≠ 0)
      simp [dumps, readValue, skipBlanks]
    | cons x xs =>
      have hx := hxs x (by simp)
      have htext : dumps (.list (x :: xs)) ++ rest =
          '[' :: (dumps x ++ (dumpsList xs ++ ']' :: rest)) := by
        simp [dumps]
      have hlen : (dumps (.list (x :: xs))).length =
          (dumps x).length + (dumpsList xs).length + 2 := by
        simp [dumps]
        omega
      obtain ⟨fuel, rfl⟩ := Nat.exists_eq_succ_of_ne_zero (by omega : fuel ≠ 0)
      have hxs' : ∀ y ∈ xs, ReadsBack y := fun y hy => hxs y (by simp [hy])
      have hread : readElements fuel (dumps x ++ (dumpsList xs ++ ']' :: rest)) =
          some (x :: xs, rest) := readElements_append hx hxs' (by omega) rest
      rw [htext, readValue, if_neg (by decide), if_pos rfl, hx.skipBlanks_append,
        if_neg (hx.head?_ne _).1, hread, Option.map_some]

/-- Objects are read back when their values are, and every key occurs once and has no high
surrogate. -/
theorem of_dict {items : List (PyStr × PyValue)} (hnodup : (items.map Prod.fst).Nodup)
    (hitems : ∀ item ∈ items, (∀ p ∈ item.1, p.isHigh = false) ∧ ReadsBack item.2) :
    ReadsBack (.dict items) where
  head := by
    cases items with
    | nil => exact ⟨'{', by simp [dumps], by decide⟩
    | cons item items => exact ⟨'{', by simp [dumps], by decide⟩
  read := by
    intro fuel rest hfuel _
    cases items with
    | nil =>
      have hlen : (dumps (.dict [])).length = 2 := by simp [dumps]
      obtain ⟨fuel, rfl⟩ := Nat.exists_eq_succ_of_ne_zero (by omega : fuel ≠ 0)
      simp [dumps, readValue, skipBlanks]
    | cons item items =>
      obtain ⟨hkey, hvalue⟩ := hitems item (by simp)
      have htext : dumps (.dict (item :: items)) ++ rest = '{' :: (quote item.1 ++
          (':' :: ' ' :: (dumps item.2 ++ (dumpsItems items ++ '}' :: rest)))) := by
        simp [dumps]
      have hlen : (dumps (.dict (item :: items))).length =
          (quote item.1).length + (dumps item.2).length + (dumpsItems items).length + 4 := by
        simp [dumps]
        omega
      obtain ⟨fuel, rfl⟩ := Nat.exists_eq_succ_of_ne_zero (by omega : fuel ≠ 0)
      have hitems' : ∀ z ∈ items, (∀ p ∈ z.1, p.isHigh = false) ∧ ReadsBack z.2 :=
        fun z hz => hitems z (by simp [hz])
      have hread : readItems fuel (quote item.1 ++ (':' :: ' ' :: (dumps item.2 ++
          (dumpsItems items ++ '}' :: rest)))) = some (item :: items, rest) :=
        readItems_append hkey hvalue hitems' (by omega) rest
      have hquote (text : List Char) : skipBlanks (quote item.1 ++ text) = quote item.1 ++ text ∧
          (quote item.1 ++ text).head? ≠ some '}' := by simp [quote, skipBlanks]
      rw [htext, readValue, if_neg (by decide), if_neg (by decide), if_pos rfl, (hquote _).1,
        if_neg (hquote _).2, hread, Option.map_some, dictOf_of_nodup hnodup]

end ReadsBack

mutual

/-- A readable value is read back from its text. -/
theorem readsBack (v : PyValue) (h : Readable v) : ReadsBack v := by
  match v with
  | .none => exact .of_literal (by simp [dumps, literals])
  | .bool true => exact .of_literal (by simp [dumps, literals])
  | .bool false => exact .of_literal (by simp [dumps, literals])
  | .int i => exact .of_int i
  | .float x =>
    rw [Readable] at h
    exact .of_float h
  | .str s =>
    rw [Readable] at h
    exact .of_str h
  | .list xs =>
    rw [Readable] at h
    exact .of_list (readsBack_list xs h)
  | .dict items =>
    rw [Readable] at h
    exact .of_dict h.1 (readsBack_items items h.2)

/-- The elements of a readable list are read back, by recursion on the value. -/
theorem readsBack_list (xs : List PyValue) (h : ReadableList xs) : ∀ x ∈ xs, ReadsBack x := by
  match xs with
  | [] => simp
  | x :: xs =>
    rw [ReadableList] at h
    exact List.forall_mem_cons.mpr ⟨readsBack x h.1, readsBack_list xs h.2⟩

/-- So are the pairs of a readable object. -/
theorem readsBack_items (items : List (PyStr × PyValue)) (h : ReadableItems items) :
    ∀ item ∈ items, (∀ p ∈ item.1, p.isHigh = false) ∧ ReadsBack item.2 := by
  match items with
  | [] => simp
  | (k, v) :: items =>
    rw [ReadableItems] at h
    exact List.forall_mem_cons.mpr ⟨⟨h.1, readsBack v h.2.1⟩, readsBack_items items h.2.2⟩

end

/-- `json.loads(json.dumps(value)) == value`, for every value that is readable. -/
theorem loads_dumps {v : PyValue} (h : Readable v) : loads (dumps v) = some v := by
  have hback := readsBack v h
  have hread : readValue (dumps v).length (dumps v ++ []) = some (v, []) :=
    hback.read le_rfl (by rintro c ⟨⟩)
  have hskip := hback.skipBlanks_append []
  rw [List.append_nil] at hread hskip
  rw [loads, hskip, hread, Option.bind_some]
  rfl

end JsonText

end ProxyClient
