import Mathlib.Data.String.Basic

/-!
# Python strings and their bytes

A Python string is a sequence of code points, and a code point may be a surrogate. The codec
`utf-8` with the error handler `surrogateescape` carries every byte string through a string
and back: a byte that does not belong to a valid encoding becomes a surrogate of its own.
-/

namespace ProxyClient

/-- A code point of a Python string. -/
inductive CodePoint
  | scalar (c : Char)
  /-- The code point `U+D800 + n`. -/
  | surrogate (n : Fin 2048)
  deriving DecidableEq

/-- A Python string, which is a sequence of code points. -/
abbrev PyStr := List CodePoint

/-- A Python byte string, as the list of its bytes. -/
abbrev Bytes := List UInt8

namespace CodePoint

/-- The surrogate that stands for a byte. -/
def escape (b : UInt8) : CodePoint :=
  surrogate ⟨0x400 + b.toNat, by have := b.toNat_lt; omega⟩

/-- The bytes of a code point. Only the surrogates that stand for bytes from 128 on have any. -/
def encode : CodePoint → Option Bytes
  | scalar c => some (String.utf8EncodeChar c)
  | surrogate n =>
    if 0x480 ≤ n.val ∧ n.val < 0x500 then some [UInt8.ofNat (n.val - 0x400)] else none

/-- The code point is no surrogate, so UTF-8 has a form for it. -/
def isScalar : CodePoint → Bool
  | scalar _ => true
  | surrogate _ => false

/-- The code point is a high surrogate, the first half of a pair. -/
def isHigh : CodePoint → Bool
  | scalar _ => false
  | surrogate n => n.val < 0x400

/-- The line feed, which joins the parts of the canonical string. -/
def lineFeed : CodePoint := scalar '\n'

end CodePoint

/-- The character whose encoding a byte string begins with. -/
def utf8Head? (bs : Bytes) : Option Char := bs.toByteArray.utf8DecodeChar? 0

/-- `text.encode("utf-8")` of a text without surrogates, which always succeeds. -/
def utf8 (text : List Char) : Bytes := text.flatMap String.utf8EncodeChar

namespace PyStr

/-- A text without surrogates, as a Python string. -/
def ofChars (text : List Char) : PyStr := text.map .scalar

/-- The string of a literal in the source. -/
def ofString (s : String) : PyStr := ofChars s.toList

/-- `s.encode("utf-8", errors="surrogateescape")`, or `none` for the `UnicodeEncodeError`. -/
def encode : PyStr → Option Bytes
  | [] => some []
  | p :: s => p.encode.bind (fun front => (encode s).map (front ++ ·))

/-- `bs.decode("utf-8", errors="surrogateescape")`: a byte that is no UTF-8 becomes a surrogate. -/
def decode : Bytes → PyStr
  | [] => []
  | b :: bs =>
    match utf8Head? (b :: bs) with
    | some c => .scalar c :: decode ((b :: bs).drop c.utf8Size)
    | none => .escape b :: decode bs
  termination_by bs => bs.length
  decreasing_by
    · have := c.utf8Size_pos
      simp
      omega
    · simp

/-- The string holds no surrogate, so that it can be encoded and is not taken for an escaped
byte. -/
def SurrogateFree (s : PyStr) : Prop := ∀ p ∈ s, p.isScalar = true

end PyStr

/-! ## The first character of a byte string -/

/-- The first character of a text is found at the head of its UTF-8 form. -/
theorem utf8Head?_append (c : Char) (bs : Bytes) :
    utf8Head? (String.utf8EncodeChar c ++ bs) = some c := by
  rw [utf8Head?, List.toByteArray_append]
  exact ByteArray.utf8DecodeChar?_utf8EncodeChar_append

/-- What is found at the head is the UTF-8 form of a character, and the rest follows it. -/
theorem utf8Head?_eq_some {c : Char} {bs : Bytes} (h : utf8Head? bs = some c) :
    bs = String.utf8EncodeChar c ++ bs.drop c.utf8Size := by
  obtain ⟨l, hl⟩ := ByteArray.exists_of_utf8DecodeChar?_eq_some h
  have hrest : l = l.data.toList.toByteArray := by
    ext1
    simp
  rw [hrest, ← List.toByteArray_append, List.toByteArray_inj] at hl
  rw [hl, ← String.length_utf8EncodeChar, List.drop_left]

/-- A character below 128 is one byte. -/
theorem utf8EncodeChar_of_lt {c : Char} (h : c.toNat < 128) :
    String.utf8EncodeChar c = [UInt8.ofNat c.toNat] :=
  if_pos (Nat.le_of_lt_succ h)

/-- A byte below 128 is a character of its own. -/
theorem le_of_utf8Head?_eq_none {b : UInt8} {bs : Bytes} (h : utf8Head? (b :: bs) = none) :
    128 ≤ b.toNat := by
  by_contra hlt
  have hnat : (Char.ofUInt8 b).toNat = b.toNat := UInt8.toNat_toUInt32 b
  have hbytes := utf8EncodeChar_of_lt (c := Char.ofUInt8 b) (by omega)
  have hsome := utf8Head?_append (Char.ofUInt8 b) bs
  rw [hbytes, hnat, UInt8.ofNat_toNat, List.singleton_append, h] at hsome
  cases hsome

/-- Only the encoding of a line feed holds its byte. -/
theorem eq_of_mem_utf8EncodeChar {c : Char} (h : 10 ∈ String.utf8EncodeChar c) : c = '\n' := by
  have hlow {n : ℕ} (hn : n < 256) (heq : (10 : UInt8) = UInt8.ofNat n) : n = 10 := by
    have hnat := congrArg UInt8.toNat heq
    rw [UInt8.toNat_ofNat_of_lt' hn] at hnat
    exact hnat.symm
  have hmax : c.val.toNat < 0x110000 := by
    rcases c.valid with hlt | ⟨-, hlt⟩ <;> omega
  unfold String.utf8EncodeChar at h
  simp only at h
  split_ifs at h <;> simp only [List.mem_cons, List.not_mem_nil, or_false] at h
  · have hval : c.val.toNat = 10 := hlow (by omega) h
    exact Char.ext (UInt32.toNat_inj.mp hval)
  · rcases h with h | h <;> exact absurd (hlow (by omega) h) (by omega)
  · rcases h with h | h | h <;> exact absurd (hlow (by omega) h) (by omega)
  · rcases h with h | h | h | h <;> exact absurd (hlow (by omega) h) (by omega)

/-- Only the line feed is encoded with its byte. -/
theorem CodePoint.lineFeed_of_encode {p : CodePoint} {bs : Bytes} (h : p.encode = some bs)
    (hmem : 10 ∈ bs) : p = .lineFeed := by
  cases p with
  | scalar c =>
    obtain rfl := Option.some.inj h
    rw [eq_of_mem_utf8EncodeChar hmem, lineFeed]
  | surrogate n =>
    simp only [encode] at h
    split at h
    · rename_i hrange
      obtain rfl := Option.some.inj h
      have hbyte := congrArg UInt8.toNat (List.mem_singleton.mp hmem)
      rw [UInt8.toNat_ofNat_of_lt' (by show _ < 256; omega)] at hbyte
      have hten : (10 : UInt8).toNat = 10 := rfl
      omega
    · cases h

/-! ## The codec -/

namespace PyStr

/-- The bytes of a string begin with those of its first code point. -/
theorem encode_cons {p : CodePoint} {s : PyStr} {bs : Bytes} (h : encode (p :: s) = some bs) :
    ∃ front, p.encode = some front ∧ ∃ rest, encode s = some rest ∧ front ++ rest = bs := by
  simpa [encode, Option.bind_eq_some_iff] using h

/-- Strings are encoded one after the other. -/
theorem encode_append {s t : PyStr} {bs : Bytes} :
    (s ++ t).encode = some bs ↔
      ∃ front, s.encode = some front ∧ ∃ back, t.encode = some back ∧ front ++ back = bs := by
  constructor
  · intro h
    induction s generalizing bs with
    | nil => exact ⟨[], rfl, bs, h, rfl⟩
    | cons p s ih =>
      obtain ⟨pb, hp, rest, hrest, rfl⟩ := encode_cons h
      obtain ⟨front, hs, back, ht, rfl⟩ := ih hrest
      exact ⟨pb ++ front, by simp [encode, hp, hs], back, ht, List.append_assoc _ _ _⟩
  · rintro ⟨front, hs, back, ht, rfl⟩
    induction s generalizing front with
    | nil =>
      obtain rfl := Option.some.inj hs
      exact ht
    | cons p s ih =>
      obtain ⟨pb, hp, sb, hsb, rfl⟩ := encode_cons hs
      simp [encode, hp, ih sb hsb]

/-- A line feed between two strings is one between their bytes. -/
theorem encode_append_lineFeed {s t : PyStr} {bs : Bytes} :
    (s ++ .lineFeed :: t).encode = some bs ↔
      ∃ front, s.encode = some front ∧ ∃ back, t.encode = some back ∧ front ++ 10 :: back = bs := by
  have htail : encode (.lineFeed :: t) = (encode t).map (10 :: ·) := rfl
  simp only [encode_append, htail, Option.map_eq_some_iff]
  constructor
  · rintro ⟨front, hs, _, ⟨back, ht, rfl⟩, rfl⟩
    exact ⟨front, hs, back, ht, rfl⟩
  · rintro ⟨front, hs, back, ht, rfl⟩
    exact ⟨front, hs, _, ⟨back, ht, rfl⟩, rfl⟩

/-- A text of characters has no surrogates, so UTF-8 encodes all of it. -/
theorem encode_ofChars (text : List Char) : (ofChars text).encode = some (utf8 text) := by
  induction text with
  | nil => rfl
  | cons c text ih =>
    have hcons : ofChars (c :: text) = .scalar c :: ofChars text := rfl
    rw [hcons, encode, ih]
    rfl

/-- Every byte string survives the way through a string. -/
theorem encode_decode (bs : Bytes) : (decode bs).encode = some bs := by
  fun_induction decode bs with
  | case1 => rfl
  | case2 b bs c hhead ih =>
    rw [encode, ih, utf8Head?_eq_some hhead]
    simp [CodePoint.encode]
  | case3 b bs hhead ih =>
    have hle := le_of_utf8Head?_eq_none hhead
    have hlt := b.toNat_lt
    have hescape : (CodePoint.escape b).encode = some [b] := by
      simp only [CodePoint.escape, CodePoint.encode]
      rw [if_pos (by omega), Nat.add_sub_cancel_left, UInt8.ofNat_toNat]
    simp [encode, ih, hescape]

/-- The decoder takes the UTF-8 form of a character for that character. -/
theorem decode_append (c : Char) (bs : Bytes) :
    decode (String.utf8EncodeChar c ++ bs) = .scalar c :: decode bs := by
  have hhead := utf8Head?_append c bs
  have hdrop : (String.utf8EncodeChar c ++ bs).drop c.utf8Size = bs := by
    rw [← String.length_utf8EncodeChar, List.drop_left]
  cases hbytes : String.utf8EncodeChar c ++ bs with
  | nil =>
    have hsize := congrArg List.length hbytes
    have hpos := c.utf8Size_pos
    simp at hsize
    omega
  | cons b rest =>
    rw [hbytes] at hhead hdrop
    rw [decode, hhead]
    simp only [hdrop]

/-- A string without surrogates is encoded, and survives the way through its bytes. -/
theorem SurrogateFree.decode_encode {s : PyStr} (h : s.SurrogateFree) :
    ∃ bs, s.encode = some bs ∧ decode bs = s := by
  induction s with
  | nil => exact ⟨[], rfl, by simp [decode]⟩
  | cons p s ih =>
    obtain ⟨bs, hbs, hdecode⟩ := ih (fun q hq => h q (by simp [hq]))
    cases p with
    | scalar c =>
      refine ⟨String.utf8EncodeChar c ++ bs, by simp [encode, CodePoint.encode, hbs], ?_⟩
      rw [decode_append, hdecode]
    | surrogate n => cases h (.surrogate n) (by simp)

/-- Characters are scalar values, which leaves no surrogate among them. -/
theorem surrogateFree_ofChars (text : List Char) : (ofChars text).SurrogateFree := by
  intro p hp
  obtain ⟨c, -, rfl⟩ := List.mem_map.mp hp
  rfl

/-- Two texts without surrogates make one without surrogates. -/
theorem SurrogateFree.append {s t : PyStr} (hs : s.SurrogateFree) (ht : t.SurrogateFree) :
    (s ++ t).SurrogateFree := by
  intro p hp
  rcases List.mem_append.mp hp with hp | hp
  · exact hs p hp
  · exact ht p hp

/-- Strings without surrogates have different bytes, since decoding gives each of them back. -/
theorem encode_inj {s t : PyStr} (hs : s.SurrogateFree) (ht : t.SurrogateFree)
    (h : s.encode = t.encode) : s = t := by
  obtain ⟨bs, hbs, rfl⟩ := hs.decode_encode
  obtain ⟨bs', hbs', rfl⟩ := ht.decode_encode
  rw [Option.some.inj ((hbs.symm.trans h).trans hbs')]

/-- The bytes of a string hold a line feed only where the string does. -/
theorem lineFeed_mem_of_encode {s : PyStr} {bs : Bytes} (h : s.encode = some bs)
    (hmem : 10 ∈ bs) : .lineFeed ∈ s := by
  induction s generalizing bs with
  | nil =>
    obtain rfl := Option.some.inj h
    cases hmem
  | cons p s ih =>
    obtain ⟨front, hp, rest, hs, rfl⟩ := encode_cons h
    rcases List.mem_append.mp hmem with hfront | hrest
    · exact List.mem_cons.mpr (.inl (CodePoint.lineFeed_of_encode hp hfront).symm)
    · exact List.mem_cons_of_mem _ (ih hs hrest)

/-- A string with a high surrogate cannot be encoded. -/
theorem isHigh_of_encode {s : PyStr} {bs : Bytes} (h : s.encode = some bs) :
    ∀ p ∈ s, p.isHigh = false := by
  induction s generalizing bs with
  | nil => simp
  | cons p s ih =>
    obtain ⟨front, hp, rest, hs, -⟩ := encode_cons h
    intro q hq
    rcases List.mem_cons.mp hq with rfl | hq
    · cases q with
      | scalar c => rfl
      | surrogate n =>
        have hrange : 0x480 ≤ n.val ∧ n.val < 0x500 := by
          by_contra hout
          simp [CodePoint.encode, hout] at hp
        have hge : 0x400 ≤ n.val := by omega
        simpa [CodePoint.isHigh] using hge
    · exact ih hs q hq

/-- Distinct texts are distinct as Python strings. -/
theorem ofChars_inj {text text' : List Char} (h : ofChars text = ofChars text') :
    text = text' :=
  List.map_injective_iff.mpr (fun _ _ h => CodePoint.scalar.inj h) h

/-- UTF-8 is injective on texts. -/
theorem utf8_inj {text text' : List Char} (h : utf8 text = utf8 text') : text = text' := by
  refine ofChars_inj (encode_inj (surrogateFree_ofChars text) (surrogateFree_ofChars text') ?_)
  rw [encode_ofChars, encode_ofChars, h]

/-- The bytes of one line are one line. -/
theorem lineFeed_not_mem_utf8 {text : List Char} (h : '\n' ∉ text) : 10 ∉ utf8 text := by
  intro hmem
  obtain ⟨c, hc, hfeed⟩ := List.mem_map.mp (lineFeed_mem_of_encode (encode_ofChars text) hmem)
  exact h (CodePoint.scalar.inj hfeed ▸ hc)

end PyStr

end ProxyClient
