import Mathlib.Data.List.Chain
import AmLang.Emit.State
/-!
# String literals of C

The generated C spells every string of the program as a C string literal (`cStringLiteral`),
which the unit declares once with `AML_STRING_LIT(name, literal, length)`. The runtime takes the
literal's bytes as the string's data and `length` as its size.

This module states how C reads such a literal and proves that it reads back the bytes written.
A string literal is `"` followed by characters up to the next unescaped `"`; a character other
than `"`, `\` and a newline stands for itself, and `\` starts an escape sequence (C11 6.4.4.4):

* one of the simple escapes `\'`, `\"`, `\?`, `\\`, `\a`, `\b`, `\f`, `\n`, `\r`, `\t`, `\v`;
* an octal escape: one to three octal digits, as many as follow, so an escape of fewer than three
  digits ends only before a character that is no octal digit;
* a hexadecimal escape: `\x` and every hexadecimal digit that follows.

An escape's value must fit in a byte. Universal character names (`\u`, `\U`) are not read here:
the literals written never hold one. Before any of this, C replaces trigraphs (`??=` and eight
more) in translation phase 1, so a literal that holds one would not mean what it spells.

The reader is a small automaton (`Reading`, `step`) run over the characters (`readFrom`), so it
evaluates by `decide`.

## Main results

* `readFrom_cEscape` — after the escape of one byte the reader has taken that byte and stands
  where it started, whatever follows.
* `readStringLiteral_cStringLiteral` — the literal reads back as the bytes of the text and ends
  where the text does.
* `cStringLiteral_printable`, `cStringLiteral_noTrigraph` — the literal holds printable ASCII
  only, so no line break, and no trigraph.
* `cStringLiteral_round_trip` — all of it, and the declaration that `stringLiteral` writes.
-/

namespace AmLang

namespace CString

/-! ## Reading a literal -/

/-- The byte a simple escape `\c` stands for. -/
def simpleEscape? : Char → Option UInt8
  | '\'' => some 39
  | '"' => some 34
  | '?' => some 63
  | '\\' => some 92
  | 'a' => some 7
  | 'b' => some 8
  | 'f' => some 12
  | 'n' => some 10
  | 'r' => some 13
  | 't' => some 9
  | 'v' => some 11
  | _ => none

/-- The value of an octal digit. -/
def octalDigit? (c : Char) : Option Nat :=
  if '0' ≤ c ∧ c ≤ '7' then some (c.toNat - 48) else none

/-- Where a reader of a literal's characters stands. -/
inductive Reading where
  /-- between characters -/
  | plain
  /-- just after a backslash -/
  | escape
  /-- in an octal escape, after one or two digits worth `value` -/
  | octal (value digits : Nat)
  /-- in a hexadecimal escape, after `\x` and `digits` digits worth `value` -/
  | hex (value digits : Nat)
deriving DecidableEq

/-- What one character does to the reader: it completes some bytes and leaves the reader in a
new place, or it closes the literal after completing some bytes, or it is an error. -/
inductive Step where
  | next (out : List UInt8) (st : Reading)
  | close (out : List UInt8)
  | fail
deriving DecidableEq

/-- The step with `bytes` completed before what it completes. -/
def Step.after (bytes : List UInt8) : Step → Step
  | .next out st => .next (bytes ++ out) st
  | .close out => .close (bytes ++ out)
  | .fail => .fail

/-- A character between characters: the closing quote, a backslash, or a byte that stands for
itself; a newline cannot stand in a literal. -/
def plainStep (c : Char) : Step :=
  if c = '"' then .close []
  else if c = '\\' then .next [] .escape
  else if c = '\n' then .fail
  else .next [Bytes.byteOf c] .plain

/-- One character read in a place. A character that ends an octal or hexadecimal escape without
belonging to it completes the escape's byte and is then read between characters. -/
def step : Reading → Char → Step
  | .plain, c => plainStep c
  | .escape, c =>
    match simpleEscape? c, octalDigit? c with
    | some b, _ => .next [b] .plain
    | none, some d => .next [] (.octal d 1)
    | none, none => if c = 'x' then .next [] (.hex 0 0) else .fail
  | .octal v n, c =>
    match octalDigit? c with
    | some d =>
      if n = 2 then
        if v * 8 + d < 256 then .next [(v * 8 + d).toUInt8] .plain else .fail
      else .next [] (.octal (v * 8 + d) (n + 1))
    | none => (plainStep c).after [v.toUInt8]
  | .hex v n, c =>
    match Bytes.hexDigit? c with
    | some d => if v * 16 + d < 256 then .next [] (.hex (v * 16 + d) (n + 1)) else .fail
    | none => if n = 0 then .fail else (plainStep c).after [v.toUInt8]

/-- Reads characters from a place up to the closing quote: the bytes they stand for and what
follows the quote. -/
def readFrom : Reading → List Char → Option (List UInt8 × List Char)
  | _, [] => none
  | st, c :: rest =>
    match step st c with
    | .next out st' => (readFrom st' rest).map fun r => (out ++ r.1, r.2)
    | .close out => some (out, rest)
    | .fail => none

/-- Reads a string literal at the start of a text: the bytes it stands for and the text after
it. -/
def readStringLiteral : List Char → Option (List UInt8 × List Char)
  | '"' :: rest => readFrom .plain rest
  | _ => none

/-- The characters that end a trigraph `??c`. -/
def trigraphEnds : List Char := ['=', '(', '/', ')', '\'', '<', '!', '>', '-']

/-- A text holds a trigraph: `??` and then one of `trigraphEnds`. -/
def HasTrigraph (l : List Char) : Prop := ∃ c ∈ trigraphEnds, ['?', '?', c] <:+: l

/-- A character of printable ASCII, from the blank to `~`. -/
def IsPrintable (c : Char) : Prop := 32 ≤ c.toNat ∧ c.toNat < 127

instance : DecidablePred IsPrintable := fun c =>
  inferInstanceAs (Decidable (32 ≤ c.toNat ∧ c.toNat < 127))

example : readStringLiteral "\"a\\101\\x41\\0\"".toList = some ([97, 65, 65, 0], []) := by decide

example : readStringLiteral "\"\\1234\"".toList = some ([83, 52], []) := by decide

/-! ## Reading one step at a time -/

theorem readFrom_cons (st : Reading) (c : Char) (rest : List Char) :
    readFrom st (c :: rest) = match step st c with
      | .next out st' => (readFrom st' rest).map fun r => (out ++ r.1, r.2)
      | .close out => some (out, rest)
      | .fail => none := rfl

theorem readFrom_of_next {st st' : Reading} {c : Char} {out : List UInt8}
    (h : step st c = .next out st') (rest : List Char) :
    readFrom st (c :: rest) = (readFrom st' rest).map fun r => (out ++ r.1, r.2) := by
  rw [readFrom_cons, h]

/-! ## The escape of one byte -/

/-- The digits of an octal escape are no simple escape and read as their values. -/
theorem octal_digit_reads (k : Fin 8) :
    simpleEscape? (Char.ofNat (48 + k.val)) = none ∧
      octalDigit? (Char.ofNat (48 + k.val)) = some k.val := by
  revert k
  decide

/-- A code below the surrogates is the code of its character. -/
theorem byteOf_ofNat {n : Nat} (h : n < 256) : Bytes.byteOf (Char.ofNat n) = n.toUInt8 := by
  rw [Bytes.byteOf, Bytes.toNat_ofNat_of_lt (by omega)]

theorem toUInt8_toNat (b : UInt8) : b.toNat.toUInt8 = b := UInt8.ofNat_toNat

/-- The three digits of the octal escape of `n` rebuild `n`. -/
theorem octal_digits_value {n : Nat} (h : n < 256) :
    (n / 64 % 8 * 8 + n / 8 % 8) * 8 + n % 8 = n := by
  omega

/-- Reading the octal escape of a byte from between characters completes that byte and comes
back between characters. -/
theorem readFrom_octalEscape (b : UInt8) (more : List Char) :
    readFrom .plain ((octalEscape b).toList ++ more) =
      (readFrom .plain more).map fun r => (b :: r.1, r.2) := by
  have hb := b.toNat_lt
  obtain ⟨hs₁, hd₁⟩ := octal_digit_reads ⟨b.toNat / 64 % 8, by omega⟩
  obtain ⟨-, hd₂⟩ := octal_digit_reads ⟨b.toNat / 8 % 8, by omega⟩
  obtain ⟨-, hd₃⟩ := octal_digit_reads ⟨b.toNat % 8, by omega⟩
  simp only at hs₁ hd₁ hd₂ hd₃
  have hval := octal_digits_value hb
  -- a backslash, then three digits: the last one completes the byte
  have h₀ : step .plain '\\' = .next [] .escape := by decide
  have h₁ : step .escape (Char.ofNat (48 + b.toNat / 64 % 8)) =
      .next [] (.octal (b.toNat / 64 % 8) 1) := by
    simp [step, hs₁, hd₁]
  have h₂ : step (.octal (b.toNat / 64 % 8) 1) (Char.ofNat (48 + b.toNat / 8 % 8)) =
      .next [] (.octal (b.toNat / 64 % 8 * 8 + b.toNat / 8 % 8) 2) := by
    simp [step, hd₂]
  have h₃ : step (.octal (b.toNat / 64 % 8 * 8 + b.toNat / 8 % 8) 2)
      (Char.ofNat (48 + b.toNat % 8)) = .next [b] .plain := by
    simp only [step, hd₃, if_true, hval, toUInt8_toNat]
    rw [if_pos (by omega)]
  have hlist : (octalEscape b).toList ++ more = '\\' :: Char.ofNat (48 + b.toNat / 64 % 8) ::
      Char.ofNat (48 + b.toNat / 8 % 8) :: Char.ofNat (48 + b.toNat % 8) :: more := by
    simp [octalEscape]
  rw [hlist, readFrom_of_next h₀, readFrom_of_next h₁, readFrom_of_next h₂, readFrom_of_next h₃]
  cases readFrom .plain more <;> rfl

/-- A byte of printable ASCII other than `"` and `\` stands for itself. -/
theorem readFrom_self (b : UInt8) (h34 : b.toNat ≠ 34) (h92 : b.toNat ≠ 92)
    (hlo : 32 ≤ b.toNat) (hhi : b.toNat < 127) (more : List Char) :
    readFrom .plain (Char.ofNat b.toNat :: more) =
      (readFrom .plain more).map fun r => (b :: r.1, r.2) := by
  have hne : ∀ c : Char, b.toNat ≠ c.toNat → Char.ofNat b.toNat ≠ c := by
    intro c hc heq
    rw [← heq, Bytes.toNat_ofNat_of_lt (by omega)] at hc
    exact hc rfl
  have hstep : step .plain (Char.ofNat b.toNat) = .next [b] .plain := by
    simp only [step, plainStep, hne '"' h34, hne '\\' h92, hne '\n' (by simp; omega), if_false,
      byteOf_ofNat b.toNat_lt, toUInt8_toNat]
  rw [readFrom_of_next hstep]
  rfl

/-- **One byte.** Reading the escape of a byte from between characters completes exactly that
byte and comes back between characters, whatever follows: an octal escape always has three
digits, so a digit after it starts a character of its own. -/
theorem readFrom_cEscape (b : UInt8) (more : List Char) :
    readFrom .plain ((cEscape b).toList ++ more) =
      (readFrom .plain more).map fun r => (b :: r.1, r.2) := by
  -- a simple escape is a backslash and one character
  have hsimple : ∀ (c : Char) (v : UInt8), b = v → step .escape c = .next [v] .plain →
      readFrom .plain ('\\' :: c :: more) = (readFrom .plain more).map fun r => (b :: r.1, r.2) := by
    intro c v hv hc
    rw [readFrom_of_next (show step .plain '\\' = .next [] .escape by decide), readFrom_of_next hc,
      hv]
    cases readFrom .plain more <;> rfl
  unfold cEscape
  split
  · next h => exact hsimple '"' 34 (UInt8.toNat_inj.1 h) (by decide)
  · next h => exact hsimple '\\' 92 (UInt8.toNat_inj.1 h) (by decide)
  · next h => exact hsimple 'n' 10 (UInt8.toNat_inj.1 h) (by decide)
  · next h => exact hsimple 't' 9 (UInt8.toNat_inj.1 h) (by decide)
  · next h => exact hsimple 'r' 13 (UInt8.toNat_inj.1 h) (by decide)
  · next h => exact hsimple '?' 63 (UInt8.toNat_inj.1 h) (by decide)
  · next _ h34 h92 _ _ _ _ =>
    split
    · exact readFrom_octalEscape b more
    · next hprint =>
      simp only [Bool.or_eq_true, decide_eq_true_eq, not_or, not_le] at hprint
      simpa using readFrom_self b h34 h92 (Nat.le_of_not_lt hprint.1) hprint.2 more

/-! ## The whole literal -/

/-- The escapes of a list of characters, read from between characters and closed by a quote,
give their bytes and nothing after. -/
theorem readFrom_escapes (cs : List Char) (more : List Char) :
    readFrom .plain ((cs.flatMap fun c => (cEscape (Bytes.byteOf c)).toList) ++ '"' :: more) =
      some (cs.map Bytes.byteOf, more) := by
  induction cs with
  | nil => rfl
  | cons c cs ih =>
    rw [List.flatMap_cons, List.append_assoc, readFrom_cEscape, ih]
    rfl

theorem toList_cStringLiteral (text : String) :
    (cStringLiteral text).toList =
      '"' :: ((text.toList.flatMap fun c => (cEscape (Bytes.byteOf c)).toList) ++ ['"']) := by
  simp [cStringLiteral, String.toList_join, List.flatMap_map]

/-- **Reading back.** The literal of a text reads as the bytes of the text, and the literal ends
where the text does. -/
theorem readStringLiteral_cStringLiteral (text : String) :
    readStringLiteral (cStringLiteral text).toList = some (text.toList.map Bytes.byteOf, []) := by
  rw [toList_cStringLiteral, readStringLiteral]
  exact readFrom_escapes text.toList []

/-! ## What the literal holds -/

theorem octalEscape_toList (b : UInt8) : (octalEscape b).toList = ['\\',
    Char.ofNat (48 + b.toNat / 64 % 8), Char.ofNat (48 + b.toNat / 8 % 8),
    Char.ofNat (48 + b.toNat % 8)] := by
  simp [octalEscape]

theorem isPrintable_digit {k : Nat} (h : k < 8) : IsPrintable (Char.ofNat (48 + k)) := by
  simp only [IsPrintable, Bytes.toNat_ofNat_of_lt (show 48 + k < 55296 by omega)]
  omega

theorem ne_question_digit {k : Nat} (h : k < 8) : Char.ofNat (48 + k) ≠ '?' := by
  intro heq
  have := congrArg Char.toNat heq
  rw [Bytes.toNat_ofNat_of_lt (by omega)] at this
  simp at this
  omega

/-- Neither of two neighbouring characters is a `?` twice over. -/
def NotBothQuestion (a b : Char) : Prop := ¬ (a = '?' ∧ b = '?')

instance : DecidableRel NotBothQuestion := fun a b =>
  inferInstanceAs (Decidable (¬ (a = '?' ∧ b = '?')))

/-- What the escape of a byte holds: printable characters only, with no `??` in it, and at least
one character, the first of them no `?`. -/
theorem cEscape_shape (b : UInt8) :
    (∀ c ∈ (cEscape b).toList, IsPrintable c) ∧ (cEscape b).toList.IsChain NotBothQuestion ∧
      ∃ x xs, (cEscape b).toList = x :: xs ∧ x ≠ '?' := by
  unfold cEscape
  split
  all_goals try (exact ⟨by simp [IsPrintable], by decide, _, _, rfl, by decide⟩)
  next _ _ _ _ _ _ h63 =>
    split
    · -- three octal digits after a backslash
      have hb := b.toNat_lt
      refine ⟨?_, ?_, _, _, octalEscape_toList b, by decide⟩
      · simp only [octalEscape_toList, List.mem_cons, List.not_mem_nil, or_false]
        rintro c (rfl | rfl | rfl | rfl)
        · decide
        all_goals exact isPrintable_digit (by omega)
      · simp only [octalEscape_toList, List.isChain_cons_cons, List.isChain_singleton, and_true,
          NotBothQuestion, not_and]
        refine ⟨fun h => absurd h (by decide), fun h => absurd h (ne_question_digit (by omega)),
          fun h => absurd h (ne_question_digit (by omega))⟩
    · next hprint =>
      -- one printable character that is no `?`
      simp only [Bool.or_eq_true, decide_eq_true_eq, not_or, not_le] at hprint
      have hchar := Bytes.toNat_ofNat_of_lt (show b.toNat < 55296 by omega)
      refine ⟨?_, by simp, _, [], String.toList_singleton _, ?_⟩
      · simp only [String.toList_singleton, List.mem_singleton, forall_eq, IsPrintable, hchar]
        omega
      · intro heq
        have := congrArg Char.toNat heq
        rw [hchar] at this
        exact h63 (by simpa using this)

/-- The escapes of a text followed by a quote: printable, without `??`, and not starting with
`?`. -/
theorem escapes_shape (cs : List Char) :
    let body := (cs.flatMap fun c => (cEscape (Bytes.byteOf c)).toList) ++ ['"']
    (∀ c ∈ body, IsPrintable c) ∧ body.IsChain NotBothQuestion ∧ body.head? ≠ some '?' := by
  induction cs with
  | nil => exact ⟨by simp [IsPrintable], by decide, by decide⟩
  | cons c cs ih =>
    obtain ⟨hp, hc, hh⟩ := ih
    obtain ⟨ep, ec, x, xs, hx, hxq⟩ := cEscape_shape (Bytes.byteOf c)
    simp only [List.flatMap_cons, List.append_assoc] at hp hc hh ⊢
    refine ⟨fun d hd => ?_, ?_, ?_⟩
    · rcases List.mem_append.1 hd with hd | hd
      · exact ep d hd
      · exact hp d hd
    · -- the join is no `??`: what follows an escape never starts with `?`
      refine List.isChain_append.2 ⟨ec, hc, fun y _ z hz => ?_⟩
      rintro ⟨-, rfl⟩
      exact hh hz
    · rw [hx]
      simpa using hxq

/-- Every character of a C string literal written for a text is printable ASCII: in particular
the literal holds no line break. -/
theorem cStringLiteral_printable (text : String) :
    ∀ c ∈ (cStringLiteral text).toList, IsPrintable c := by
  rw [toList_cStringLiteral]
  intro c hc
  rcases List.mem_cons.1 hc with rfl | hc
  · decide
  · exact (escapes_shape text.toList).1 c hc

/-- No C string literal written for a text holds a trigraph: every `?` in it follows a
backslash. -/
theorem cStringLiteral_noTrigraph (text : String) : ¬ HasTrigraph (cStringLiteral text).toList := by
  rintro ⟨c, -, hinfix⟩
  obtain ⟨-, hchain, hhead⟩ := escapes_shape text.toList
  have hall : (cStringLiteral text).toList.IsChain NotBothQuestion := by
    rw [toList_cStringLiteral]
    refine List.isChain_cons.2 ⟨fun y hy => ?_, hchain⟩
    rintro ⟨h, -⟩
    exact absurd h (by decide)
  obtain ⟨pre, post, hsplit⟩ := hinfix
  rw [← hsplit] at hall
  have hmid := (List.isChain_append.1 (List.isChain_append.1 hall).1).2.1
  exact (List.isChain_cons_cons.1 hmid).1 ⟨rfl, rfl⟩

/-! ## The declaration of a literal -/

/-- A step that reads the state runs on the state it starts from. -/
theorem run_get_bind {α : Type} (f : EmitState → EmitM α) (s : EmitState) :
    ((get >>= f : EmitM α).run.run s) = (f s).run.run s := rfl

/-- `EmitM.stringLiteral` declares a text it has not declared before with one line: the
literal of the text and its length. -/
theorem stringLiteral_declares (text : String) (s : EmitState)
    (hnew : s.literals.get? text = none) :
    ((EmitM.stringLiteral text).run.run s).2.sections.literals = s.sections.literals ++
      ("AML_STRING_LIT(" ++ ("s_lit_" ++ toString s.literals.size) ++ ", " ++ cStringLiteral text ++
        ", " ++ toString text.length ++ ");\n") := by
  unfold EmitM.stringLiteral
  rw [run_get_bind]
  simp only [hnew]
  rfl

/-- **String literals round-trip.** The C string literal written for a text reads, by C's rules
for escapes, as exactly the bytes of the text and ends where the text does; it holds printable
ASCII only, so no line break, and no trigraph. A text declared for the first time gets the line
`AML_STRING_LIT(name, literal, length)` with that literal and the number of its bytes, so the
string the runtime builds from it has the text's bytes. -/
theorem cStringLiteral_round_trip (text : String) :
    (readStringLiteral (cStringLiteral text).toList = some (text.toList.map Bytes.byteOf, []) ∧
      (∀ c ∈ (cStringLiteral text).toList, IsPrintable c) ∧
      ¬ HasTrigraph (cStringLiteral text).toList) ∧
    ∀ s : EmitState, s.literals.get? text = none →
      ∃ name, ((EmitM.stringLiteral text).run.run s).2.sections.literals = s.sections.literals ++
        ("AML_STRING_LIT(" ++ name ++ ", " ++ cStringLiteral text ++ ", " ++
          toString (text.toList.map Bytes.byteOf).length ++ ");\n") := by
  refine ⟨⟨readStringLiteral_cStringLiteral text, cStringLiteral_printable text,
    cStringLiteral_noTrigraph text⟩, fun s hnew => ⟨"s_lit_" ++ toString s.literals.size, ?_⟩⟩
  rw [stringLiteral_declares text s hnew, List.length_map, String.length_toList]

end CString

end AmLang
