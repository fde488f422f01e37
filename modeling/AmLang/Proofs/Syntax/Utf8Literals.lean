import AmLang.Proofs.Syntax.LazyLexing
import AmLang.Proofs.Syntax.NumberExpressions
import AmLang.Proofs.Syntax.RadixLiterals
/-!
# UTF-8 in character and string literals

A character literal holds one character, written as its UTF-8 bytes or as an escape; a `\u`
escape writes a 16-bit code unit with four hexadecimal digits, and inside a string it stands
for that unit's UTF-8 bytes. The lexer's encoder (`utf8Bytes`) and decoder (`decodeUtf8`) are
inverse for every code point below `2^21`: the lead byte's high bits give the number of
continuation bytes, each continuation byte carries six bits, and the decoder reads exactly the
bytes the encoder wrote.

The arithmetic is done on six-bit groups. A code point of `k` bytes is the number its groups
write in base 64, the lead byte holds the top group behind its length marker and each
continuation byte one more group behind `10`; each marker test is then a fact about one group,
checked over the few values a group can take.

## Main results

* `decodeUtf8_utf8Bytes` — decoding the encoding of a code point below `2^21` gives it back and
  consumes exactly its bytes.
* `tokenize_char_literal` — a quote, the UTF-8 bytes of a code point up to `0xFFFF` other than a
  quote, a backslash or a newline, and a quote lex to one character literal of that value.
* `tokenize_unicode_escape_char`, `tokenize_unicode_escape_string` — `'\uXXXX'` is the character
  literal of the unit `XXXX`, and `"\uXXXX"` the string literal of its UTF-8 bytes.
* `utf8_literals_round_trip` — the three together.
-/

namespace AmLang

namespace Lexer

variable {l : Lexer}

/-! ## Reading bytes -/

/-- The lexer reads the bytes `cs` from `pos` on. -/
def ReadsAt (l : Lexer) (pos : Nat) (cs : List Char) : Prop :=
  ∀ i (hi : i < cs.length), l.peek (pos + i) = cs[i]

namespace ReadsAt

theorem cons {pos : Nat} {c : Char} {cs : List Char} :
    l.ReadsAt pos (c :: cs) ↔ l.peek pos = c ∧ l.ReadsAt (pos + 1) cs := by
  constructor
  · intro h
    refine ⟨h 0 (by simp), fun i hi => ?_⟩
    have := h (i + 1) (by simpa using hi)
    rwa [← Nat.add_assoc, Nat.add_right_comm] at this
  · rintro ⟨h0, hrest⟩ i hi
    cases i with
    | zero => simpa using h0
    | succ i =>
      have := hrest i (by simpa using hi)
      rwa [Nat.add_right_comm, Nat.add_assoc] at this

theorem append {pos : Nat} {cs ds : List Char} :
    l.ReadsAt pos (cs ++ ds) ↔ l.ReadsAt pos cs ∧ l.ReadsAt (pos + cs.length) ds := by
  induction cs generalizing pos with
  | nil => simp [ReadsAt]
  | cons c cs ih =>
    rw [List.cons_append, cons, cons, ih, List.length_cons, Nat.add_right_comm, Nat.add_assoc]
    exact and_assoc.symm

end ReadsAt

/-! ## Six-bit groups -/

/-- A byte is the code of the character that stands for it. -/
theorem toNat_ofNat_byte {b : Nat} (h : b < 256) : (Char.ofNat b).toNat = b :=
  Bytes.toNat_ofNat_of_lt (by omega)

/-- A continuation byte is `10` and six bits of the code point. -/
theorem continuation_byte : ∀ x < 64,
    (0x80 ||| x) < 256 ∧ (0x80 ||| x) &&& 0xC0 = 0x80 ∧ (0x80 ||| x) &&& 0x3F = x := by
  decide

/-- The lead byte of two bytes is `110` and the top five bits. -/
theorem lead_byte_two : ∀ t < 32, (0xC0 ||| t) < 256 ∧ ¬(0xC0 ||| t) < 0x80 ∧
    (0xC0 ||| t) &&& 0xE0 = 0xC0 ∧ (0xC0 ||| t) &&& 0x1F = t := by
  decide

/-- The lead byte of three bytes is `1110` and the top four bits. -/
theorem lead_byte_three : ∀ t < 16, (0xE0 ||| t) < 256 ∧ ¬(0xE0 ||| t) < 0x80 ∧
    (0xE0 ||| t) &&& 0xE0 ≠ 0xC0 ∧ (0xE0 ||| t) &&& 0xF0 = 0xE0 ∧ (0xE0 ||| t) &&& 0x0F = t := by
  decide

/-- The lead byte of four bytes is `11110` and the top three bits. -/
theorem lead_byte_four : ∀ t < 8, (0xF0 ||| t) < 256 ∧ ¬(0xF0 ||| t) < 0x80 ∧
    (0xF0 ||| t) &&& 0xE0 ≠ 0xC0 ∧ (0xF0 ||| t) &&& 0xF0 ≠ 0xE0 ∧ (0xF0 ||| t) &&& 0xF8 = 0xF0 ∧
    (0xF0 ||| t) &&& 0x07 = t := by
  decide

/-- The low six bits of a value. -/
theorem and_sixty_three (x : Nat) : x &&& 0x3F = x % 64 :=
  Nat.and_two_pow_sub_one_eq_mod x 6

theorem and_sixty_three_lt (x : Nat) : x &&& 0x3F < 64 := by
  rw [and_sixty_three]
  exact Nat.mod_lt _ (by decide)

/-- The six-bit groups of a code point, counted from the top. -/
theorem group_shifts (cp : Nat) :
    cp >>> 6 = cp / 64 ∧ cp >>> 12 = cp / 4096 ∧ cp >>> 18 = cp / 262144 :=
  ⟨Nat.shiftRight_eq_div_pow cp 6, Nat.shiftRight_eq_div_pow cp 12,
    Nat.shiftRight_eq_div_pow cp 18⟩

/-- Appending six bits below a value. -/
theorem shift_or_group {acc x : Nat} (hx : x < 64) : (acc <<< 6) ||| x = acc * 64 + x := by
  rw [← Nat.shiftLeft_add_eq_or_of_lt (show x < 2 ^ 6 from hx), Nat.shiftLeft_eq]

/-! ## Decoding -/

/-- A continuation byte adds its six bits to the code point read so far. -/
theorem decodeUtf8_go_cont {i p acc x : Nat} (hx : x < 64)
    (hp : l.peek p = Char.ofNat (0x80 ||| x)) :
    decodeUtf8.go l (i + 1) p acc = decodeUtf8.go l i (p + 1) (acc * 64 + x) := by
  obtain ⟨hlt, hmark, hbits⟩ := continuation_byte x hx
  simp only [decodeUtf8.go, hp, toNat_ofNat_byte hlt, hmark, hbits, bne_self_eq_false,
    Bool.false_eq_true, if_false, shift_or_group hx]

theorem decodeUtf8_go_zero (p acc : Nat) : decodeUtf8.go l 0 p acc = (acc, p) := rfl

/-- Decoding the encoding of a code point below `2^21` gives it back and consumes exactly its
bytes. -/
theorem decodeUtf8_utf8Bytes {cp pos : Nat} (hcp : cp < 0x200000)
    (hread : l.ReadsAt pos (utf8Bytes cp)) :
    l.decodeUtf8 pos = (cp, pos + (utf8Bytes cp).length) := by
  -- the encoder cuts the code point into six-bit groups
  obtain ⟨t6, t12, t18⟩ := group_shifts cp
  unfold utf8Bytes at hread ⊢
  by_cases h1 : cp < 0x80
  · -- one byte, the code point itself
    simp only [h1, if_true, ReadsAt.cons] at hread ⊢
    simp only [decodeUtf8, hread.1, toNat_ofNat_byte (show cp < 256 by omega), h1, if_true,
      List.length_singleton]
  by_cases h2 : cp < 0x800
  · -- two bytes
    obtain ⟨hl, hn, hm, hb⟩ := lead_byte_two (cp >>> 6) (by omega)
    have hx := and_sixty_three_lt cp
    simp only [h1, h2, if_true, if_false, ReadsAt.cons] at hread ⊢
    simp only [decodeUtf8, hread.1, toNat_ofNat_byte hl, hn, hm, hb, if_false, if_true]
    rw [decodeUtf8_go_cont hx hread.2.1, decodeUtf8_go_zero]
    simp only [List.length_cons, List.length_nil, Prod.mk.injEq, and_true, t6, and_sixty_three]
    omega
  by_cases h3 : cp < 0x10000
  · -- three bytes
    obtain ⟨hl, hn, hm2, hm, hb⟩ := lead_byte_three (cp >>> 12) (by omega)
    have hx1 := and_sixty_three_lt (cp >>> 6)
    have hx0 := and_sixty_three_lt cp
    simp only [h1, h2, h3, if_true, if_false, ReadsAt.cons] at hread ⊢
    simp only [decodeUtf8, hread.1, toNat_ofNat_byte hl, hn, hm2, hm, hb, if_false, if_true]
    rw [decodeUtf8_go_cont hx1 hread.2.1, decodeUtf8_go_cont hx0 hread.2.2.1, decodeUtf8_go_zero]
    simp only [List.length_cons, List.length_nil, Prod.mk.injEq, and_true, t6, t12,
      and_sixty_three]
    omega
  · -- four bytes
    obtain ⟨hl, hn, hm2, hm3, hm, hb⟩ := lead_byte_four (cp >>> 18) (by omega)
    have hx2 := and_sixty_three_lt (cp >>> 12)
    have hx1 := and_sixty_three_lt (cp >>> 6)
    have hx0 := and_sixty_three_lt cp
    simp only [h1, h2, h3, if_false, ReadsAt.cons] at hread ⊢
    simp only [decodeUtf8, hread.1, toNat_ofNat_byte hl, hn, hm2, hm3, hm, hb, if_false, if_true]
    rw [decodeUtf8_go_cont hx2 hread.2.1, decodeUtf8_go_cont hx1 hread.2.2.1,
      decodeUtf8_go_cont hx0 hread.2.2.2.1, decodeUtf8_go_zero]
    simp only [List.length_cons, List.length_nil, Prod.mk.injEq, and_true, t6, t12, t18,
      and_sixty_three]
    omega

/-! ## Encoding -/

/-- The encoding of a code point below `2^21` starts with the code point itself when it is below
`0x80`, and with a byte from `0x80` up otherwise. -/
theorem utf8Bytes_head {cp : Nat} (hcp : cp < 0x200000) :
    ∃ b bs, utf8Bytes cp = b :: bs ∧ (b.toNat = cp ∨ 0x80 ≤ b.toNat) := by
  obtain ⟨t6, t12, t18⟩ := group_shifts cp
  unfold utf8Bytes
  split_ifs with h1 h2 h3
  · exact ⟨_, _, rfl, .inl (toNat_ofNat_byte (by omega))⟩
  · obtain ⟨hl, hn, -⟩ := lead_byte_two (cp >>> 6) (by omega)
    exact ⟨_, _, rfl, .inr (by rw [toNat_ofNat_byte hl]; omega)⟩
  · obtain ⟨hl, hn, -⟩ := lead_byte_three (cp >>> 12) (by omega)
    exact ⟨_, _, rfl, .inr (by rw [toNat_ofNat_byte hl]; omega)⟩
  · obtain ⟨hl, hn, -⟩ := lead_byte_four (cp >>> 18) (by omega)
    exact ⟨_, _, rfl, .inr (by rw [toNat_ofNat_byte hl]; omega)⟩

/-- The encoding of a code point other than a quote, a backslash and a newline does not start
with one of them: a byte from `0x80` up is none of them, and below it the byte is the code
point. -/
theorem utf8Bytes_head_plain {cp : Nat} (hcp : cp < 0x200000) (hq : cp ≠ 0x27)
    (hbs : cp ≠ 0x5C) (hnl : cp ≠ 0x0A) :
    ∃ b bs, utf8Bytes cp = b :: bs ∧ b ≠ '\'' ∧ b ≠ '\\' ∧ b ≠ '\n' := by
  obtain ⟨b, bs, hbs', hb⟩ := utf8Bytes_head hcp
  refine ⟨b, bs, hbs', ?_, ?_, ?_⟩ <;> rintro rfl <;> simp at hb <;> omega

/-! ## Lexing a text -/

/-- A lexer over the whole of a source text reads that text from its start. -/
theorem ofText_reads {name text : String} {cs : List Char} (htext : text.toList = cs) :
    (ofSource (Source.ofText name text)).ReadsAt 0 cs ∧
      (ofSource (Source.ofText name text)).start = 0 ∧
      (ofSource (Source.ofText name text)).stop = cs.length := by
  refine ⟨fun i hi => ?_, rfl, ?_⟩
  · rw [ofText_peek, htext, Nat.zero_add, List.getD_eq_getElem?_getD,
      List.getElem?_eq_getElem hi, Option.getD_some]
  · rw [ofText_stop, htext]

/-- A range that one scan step lexes whole into one token other than the end of file is that
token and the end of file. -/
theorem tokenize_one {t : Token} (hs : (l.scan l.start).tokens = [t])
    (hnext : (l.scan l.start).next = l.stop) (ht : t.kind ≠ .eof) :
    l.tokenize.1 = #[t, l.token .eof l.stop l.stop] := by
  have hlt : l.start < l.stop := by
    by_contra hge
    rw [scan_of_stop_le (Nat.le_of_not_lt hge), single_tokens, List.cons.injEq] at hs
    exact ht (hs.1 ▸ kind_token _ _ _)
  have hfuel : l.stop - l.start + 1 = (l.stop - l.start - 1) + 1 + 1 := by omega
  simp only [tokenize, hfuel]
  rw [scanRun]
  simp only [hs, hnext, TokenKind.beq_eof_of_ne ht, Bool.false_eq_true, if_false, scanRun_stop]
  rfl

/-- A quote in the range starts a character literal. -/
theorem scan_quote {a : Nat} (ha : a < l.stop) (hq : l.peek a = '\'') :
    l.scan a = single (l.scanChar a).1 (l.scanChar a).2 := by
  rw [scan, skipTrivia_of_start ha (by simp [hq])]
  simp +decide only [ha, if_true, hq, if_false]

/-- A double quote in the range starts a string literal. -/
theorem scan_doubleQuote {a : Nat} (ha : a < l.stop) (hq : l.peek a = '"') :
    l.scan a = l.scanString a (a + 1) { textStart := a + 1 } := by
  rw [scan, skipTrivia_of_start ha (by simp [hq])]
  simp +decide only [ha, if_true, hq, if_false]

/-- A quote, the encoding of a code point up to `0xFFFF` other than a quote, a backslash and a
newline, and a quote: the character literal of the code point. -/
theorem scanChar_utf8 {a cp : Nat} (hcp : cp ≤ 0xFFFF) (hq : cp ≠ 0x27) (hbs : cp ≠ 0x5C)
    (hnl : cp ≠ 0x0A) (hread : l.ReadsAt a ('\'' :: (utf8Bytes cp ++ ['\'']))) :
    l.scanChar a = ({ l.token .charLit a (a + 1 + (utf8Bytes cp).length + 1) with value := .char cp },
      a + 1 + (utf8Bytes cp).length + 1) := by
  obtain ⟨b, bs, henc, hbq, hbb, hbn⟩ := utf8Bytes_head_plain (by omega) hq hbs hnl
  rw [ReadsAt.cons, ReadsAt.append] at hread
  obtain ⟨-, hbody, hclose⟩ := hread
  have hclose : l.peek (a + 1 + (utf8Bytes cp).length) = '\'' := by
    simpa [ReadsAt] using hclose 0
  have hlast := lt_stop_of_peek hclose (by decide)
  have hdec := decodeUtf8_utf8Bytes (by omega) hbody
  have hfirst : l.peek (a + 1) = b := by
    rw [henc] at hbody
    exact (ReadsAt.cons.1 hbody).1
  have hin : ¬a + 1 ≥ l.stop := by omega
  have hunit : ¬cp > 0xFFFF := by omega
  simp only [scanChar, hfirst, hbq, hbb, hbn, if_false, hdec, hclose, or_false, hin, ne_eq,
    not_true_eq_false, hunit]

/-! ## Unicode escapes -/

/-- The escape reader and the number reader give a hexadecimal digit the same value. -/
theorem hexDigit?_of_isHexDigit {c : Char} (h : isHexDigit c = true) :
    Bytes.hexDigit? c = some (NumberLiteral.digitValue c) := by
  have hc := NumberLiteral.toNat_of_isHexDigit h
  unfold Bytes.hexDigit? NumberLiteral.digitValue
  split_ifs <;>
    first
    | rfl
    | (simp only [Char.le_def, UInt32.le_iff_toNat_le, Char.toNat_val, Char.reduceToNat,
         not_and_or, not_le] at *
       omega)

/-- Over hexadecimal digits, the loop of a `\u` escape reads Horner's value of them after `acc`
and stops right after them. -/
theorem unicodeEscape_hex {hex : List Char} (hhex : ∀ c ∈ hex, isHexDigit c = true) :
    ∀ {pos acc : Nat}, l.ReadsAt pos hex →
      l.unicodeEscape pos acc hex.length =
        ⟨pos + hex.length, .ok (NumberLiteral.horner 16 acc (hex.map NumberLiteral.digitValue),
          utf8Bytes (NumberLiteral.horner 16 acc (hex.map NumberLiteral.digitValue)))⟩ := by
  induction hex with
  | nil =>
    intro pos acc _
    rfl
  | cons c hex ih =>
    intro pos acc hread
    rw [ReadsAt.cons] at hread
    rw [List.length_cons, unicodeEscape, hread.1, hexDigit?_of_isHexDigit (hhex c (by simp))]
    dsimp only
    rw [ih (fun c' h' => hhex c' (List.mem_cons_of_mem c h')) hread.2]
    simp [NumberLiteral.horner, Nat.add_right_comm, Nat.add_assoc]

/-- Hexadecimal digits are all read, so Horner's value of them is the value the number reader
gives them. -/
theorem horner_hex {hex : List Char} (hhex : ∀ c ∈ hex, isHexDigit c = true) :
    NumberLiteral.horner 16 0 (hex.map NumberLiteral.digitValue) =
      NumberLiteral.radixValue 16 hex := by
  rw [← NumberLiteral.horner_zero, NumberLiteral.digitValues, List.filter_eq_self.2]
  intro c hc
  simpa using (NumberLiteral.ne_of_isHexDigit (hhex c hc)).1

/-- `k` hexadecimal digits write a number below `16 ^ k`. -/
theorem radixValue_hex_lt {hex : List Char} (hhex : ∀ c ∈ hex, isHexDigit c = true) :
    NumberLiteral.radixValue 16 hex < 16 ^ hex.length := by
  have hdigits : ∀ x ∈ (hex.map NumberLiteral.digitValue).reverse, x < 16 := by
    intro x hx
    obtain ⟨c, hc, rfl⟩ := List.mem_map.1 (List.mem_reverse.1 hx)
    exact NumberLiteral.digitValue_lt_of_isHexDigit (hhex c hc)
  have hlt := Nat.ofDigits_lt_base_pow_length (by decide) hdigits
  rw [← horner_hex hhex, NumberLiteral.horner_eq, Nat.zero_mul, Nat.zero_add]
  simpa using hlt

/-- A `\u` escape of four hexadecimal digits is the unit they write, with its UTF-8 bytes. -/
theorem escape_unicode {pos : Nat} {hex : List Char} (hhex : ∀ c ∈ hex, isHexDigit c = true)
    (hlen : hex.length = 4) (hread : l.ReadsAt pos ('u' :: hex)) :
    l.escape pos = ⟨pos + 5, .ok (NumberLiteral.radixValue 16 hex,
      utf8Bytes (NumberLiteral.radixValue 16 hex))⟩ := by
  rw [ReadsAt.cons] at hread
  have hin := lt_stop_of_peek hread.1 (by decide)
  have hloop : l.unicodeEscape (pos + 1) 0 hex.length = _ := unicodeEscape_hex hhex hread.2
  rw [hlen, horner_hex hhex] at hloop
  simp only [escape, hread.1, hin, if_true, hloop]

/-- Between two quotes `q`, a `\u` escape of four hexadecimal digits: the backslash, the escape
read after it, and the closing quote right after the escape, inside the range. -/
theorem quoted_unicode_escape {a : Nat} {q : Char} {hex : List Char} (hq : q ≠ '\x00')
    (hhex : ∀ c ∈ hex, isHexDigit c = true) (hlen : hex.length = 4)
    (hread : l.ReadsAt a (q :: '\\' :: 'u' :: (hex ++ [q]))) :
    l.peek (a + 1) = '\\' ∧
      l.escape (a + 1 + 1) = ⟨a + 1 + 1 + 5, .ok (NumberLiteral.radixValue 16 hex,
        utf8Bytes (NumberLiteral.radixValue 16 hex))⟩ ∧
      l.peek (a + 1 + 1 + 5) = q ∧ a + 1 + 1 + 5 < l.stop := by
  simp only [ReadsAt.cons, ReadsAt.append] at hread
  obtain ⟨-, hbs, hu, hdigits, hclose⟩ := hread
  have hclose : l.peek (a + 1 + 1 + 5) = q := by
    rw [← hclose.1, hlen]
  exact ⟨hbs, escape_unicode hhex hlen (ReadsAt.cons.2 ⟨hu, hdigits⟩), hclose,
    lt_stop_of_peek hclose hq⟩

/-- A quote, a `\u` escape of four hexadecimal digits and a quote: the character literal of the
unit the digits write. -/
theorem scanChar_unicode {a : Nat} {hex : List Char} (hhex : ∀ c ∈ hex, isHexDigit c = true)
    (hlen : hex.length = 4) (hread : l.ReadsAt a ('\'' :: '\\' :: 'u' :: (hex ++ ['\'']))) :
    l.scanChar a =
      ({ l.token .charLit a (a + 8) with value := .char (NumberLiteral.radixValue 16 hex) },
        a + 8) := by
  obtain ⟨hbs, hesc, hclose, hlast⟩ := quoted_unicode_escape (by decide) hhex hlen hread
  have hin : ¬a + 1 ≥ l.stop := by omega
  have hunit : ¬NumberLiteral.radixValue 16 hex > 0xFFFF := by
    have := radixValue_hex_lt hhex
    rw [hlen] at this
    omega
  simp +decide only [scanChar, hbs, hin, hesc, hclose, hunit, if_true, if_false, false_or]

/-- A double quote, a `\u` escape of four hexadecimal digits and a double quote: the string
literal of the UTF-8 bytes of the unit the digits write. -/
theorem scanString_unicode {a : Nat} {hex : List Char} (hhex : ∀ c ∈ hex, isHexDigit c = true)
    (hlen : hex.length = 4) (hread : l.ReadsAt a ('"' :: '\\' :: 'u' :: (hex ++ ['"']))) :
    l.scanString a (a + 1) { textStart := a + 1 } =
      ⟨[{ l.token .stringLit a (a + 8) with
          value := .text (String.ofList (utf8Bytes (NumberLiteral.radixValue 16 hex))) }],
        a + 8, []⟩ := by
  obtain ⟨hbs, hesc, hclose, hlast⟩ := quoted_unicode_escape (by decide) hhex hlen hread
  -- the escape, then the closing quote
  rw [scanString]
  simp +decide only [show a + 1 < l.stop by omega, dif_pos, hbs, if_false, if_true, hesc]
  rw [show max (a + 1 + 1 + 5) (a + 1 + 1) = a + 1 + 1 + 5 by omega, scanString]
  simp +decide only [hlast, dif_pos, hclose, if_false, if_true, finishString, List.append_nil,
    List.reverse_reverse]

/-! ## Whole literals -/

/-- A range holding a quote, the encoding of a code point up to `0xFFFF` other than a quote, a
backslash and a newline, and a quote lexes to the character literal of that code point. -/
theorem tokenize_char_literal {cp : Nat} (hcp : cp ≤ 0xFFFF) (hq : cp ≠ 0x27) (hbs : cp ≠ 0x5C)
    (hnl : cp ≠ 0x0A) (hread : l.ReadsAt l.start ('\'' :: (utf8Bytes cp ++ ['\''])))
    (hstop : l.stop = l.start + 1 + (utf8Bytes cp).length + 1) :
    l.tokenize.1 =
      #[{ l.token .charLit l.start l.stop with value := .char cp }, l.token .eof l.stop l.stop] := by
  have hs := scan_quote (by omega) (ReadsAt.cons.1 hread).1
  rw [scanChar_utf8 hcp hq hbs hnl hread, ← hstop] at hs
  exact tokenize_one (by rw [hs]; rfl) (by rw [hs]; rfl) (by simp)

/-- A range holding `'\uXXXX'` lexes to the character literal of the unit `XXXX`. -/
theorem tokenize_unicode_escape_char {hex : List Char} (hhex : ∀ c ∈ hex, isHexDigit c = true)
    (hlen : hex.length = 4) (hread : l.ReadsAt l.start ('\'' :: '\\' :: 'u' :: (hex ++ ['\''])))
    (hstop : l.stop = l.start + 8) :
    l.tokenize.1 = #[{ l.token .charLit l.start l.stop with
      value := .char (NumberLiteral.radixValue 16 hex) }, l.token .eof l.stop l.stop] := by
  have hs := scan_quote (by omega) (ReadsAt.cons.1 hread).1
  rw [scanChar_unicode hhex hlen hread, ← hstop] at hs
  exact tokenize_one (by rw [hs]; rfl) (by rw [hs]; rfl) (by simp)

/-- A range holding `"\uXXXX"` lexes to the string literal of the UTF-8 bytes of the unit
`XXXX`. -/
theorem tokenize_unicode_escape_string {hex : List Char} (hhex : ∀ c ∈ hex, isHexDigit c = true)
    (hlen : hex.length = 4) (hread : l.ReadsAt l.start ('"' :: '\\' :: 'u' :: (hex ++ ['"'])))
    (hstop : l.stop = l.start + 8) :
    l.tokenize.1 = #[{ l.token .stringLit l.start l.stop with
      value := .text (String.ofList (utf8Bytes (NumberLiteral.radixValue 16 hex))) },
        l.token .eof l.stop l.stop] := by
  have hs := scan_doubleQuote (by omega) (ReadsAt.cons.1 hread).1
  rw [scanString_unicode hhex hlen hread, ← hstop] at hs
  exact tokenize_one (by rw [hs]) (by rw [hs]) (by simp)

/-- Encoding and decoding are inverse below `2^21`, and so the literals of a source text read
their units back: a quote, the UTF-8 bytes of a code point up to `0xFFFF` other than a quote, a
backslash and a newline, and a quote is the character literal of that code point; `'\uXXXX'` is
the character literal of the unit `XXXX`; and `"\uXXXX"` is the string literal holding that
unit's UTF-8 bytes. -/
theorem utf8_literals_round_trip :
    (∀ (l : Lexer) (cp pos : Nat), cp < 0x200000 → l.ReadsAt pos (utf8Bytes cp) →
      l.decodeUtf8 pos = (cp, pos + (utf8Bytes cp).length)) ∧
    (∀ (name text : String) (cp : Nat), cp ≤ 0xFFFF → cp ≠ 0x27 → cp ≠ 0x5C → cp ≠ 0x0A →
      text.toList = '\'' :: (utf8Bytes cp ++ ['\'']) →
      (ofSource (Source.ofText name text)).tokenize.1 =
        #[{ (ofSource (Source.ofText name text)).token .charLit 0 ((utf8Bytes cp).length + 2) with
            value := .char cp },
          (ofSource (Source.ofText name text)).token .eof ((utf8Bytes cp).length + 2)
            ((utf8Bytes cp).length + 2)]) ∧
    (∀ (name text : String) (hex : List Char), hex.length = 4 →
      (∀ c ∈ hex, isHexDigit c = true) → text.toList = '\'' :: '\\' :: 'u' :: (hex ++ ['\'']) →
      (ofSource (Source.ofText name text)).tokenize.1 =
        #[{ (ofSource (Source.ofText name text)).token .charLit 0 8 with
            value := .char (NumberLiteral.radixValue 16 hex) },
          (ofSource (Source.ofText name text)).token .eof 8 8]) ∧
    (∀ (name text : String) (hex : List Char), hex.length = 4 →
      (∀ c ∈ hex, isHexDigit c = true) → text.toList = '"' :: '\\' :: 'u' :: (hex ++ ['"']) →
      (ofSource (Source.ofText name text)).tokenize.1 =
        #[{ (ofSource (Source.ofText name text)).token .stringLit 0 8 with
            value := .text (String.ofList (utf8Bytes (NumberLiteral.radixValue 16 hex))) },
          (ofSource (Source.ofText name text)).token .eof 8 8]) := by
  refine ⟨fun l cp pos hcp hread => decodeUtf8_utf8Bytes hcp hread, ?_, ?_, ?_⟩
  · intro name text cp hcp hq hbs hnl htext
    obtain ⟨hread, hstart, hstop⟩ := @ofText_reads name text _ htext
    have hend : (ofSource (Source.ofText name text)).stop = (utf8Bytes cp).length + 2 := by
      simp only [hstop, List.length_cons, List.length_append, List.length_nil]
    rw [tokenize_char_literal hcp hq hbs hnl (by rwa [hstart]) (by omega), hend, hstart]
  · intro name text hex hlen hhex htext
    obtain ⟨hread, hstart, hstop⟩ := @ofText_reads name text _ htext
    have hend : (ofSource (Source.ofText name text)).stop = 8 := by
      simp only [hstop, List.length_cons, List.length_append, List.length_nil, hlen]
    rw [tokenize_unicode_escape_char hhex hlen (by rwa [hstart]) (by omega), hend, hstart]
  · intro name text hex hlen hhex htext
    obtain ⟨hread, hstart, hstop⟩ := @ofText_reads name text _ htext
    have hend : (ofSource (Source.ofText name text)).stop = 8 := by
      simp only [hstop, List.length_cons, List.length_append, List.length_nil, hlen]
    rw [tokenize_unicode_escape_string hhex hlen (by rwa [hstart]) (by omega), hend, hstart]

end Lexer

end AmLang
