import Swindle.Boot.Cycle
import Swindle.Machine.Lexer

/-! The way of stage 2 into stage 1: `bin2h.py` prints the binary as a C array, the compiler reads
the array, and stage 1 copies it to RAM. -/
namespace Swindle
open Machine

/-- `f"0x{b:02x}"`. -/
def hexByte (b : Byte) : List Char :=
  ['0', 'x', (b.toNat / 16).digitChar, (b.toNat % 16).digitChar]

/-- `", ".join(...)`. -/
def joinBytes : List Byte → List Char
  | [] => []
  | [b] => hexByte b
  | b :: bs => hexByte b ++ (", ".toList ++ joinBytes bs)

def chunkLine (chunk : List Byte) : List Char := "    ".toList ++ (joinBytes chunk ++ ",\n".toList)

example : chunkLine [0xA0#8, 0x0F#8] = "    0xa0, 0x0f,\n".toList := by decide

def pragmaLine : List Char := "#pragma once\n".toList
def includeLine : List Char := "#include <stdint.h>\n".toList
def arrayLine : List Char := "static const uint8_t stage2_payload[] = \x7b\n".toList
def closeLine : List Char := "\x7d;\n".toList

def sizeLine (n : ℕ) : List Char :=
  "static const unsigned int stage2_payload_size = ".toList ++ (Nat.toDigits 10 n ++ "u;\n".toList)

def bin2h (data : List Byte) : List Char :=
  pragmaLine ++ (includeLine ++ ('\n' :: (arrayLine ++
    ((blocks 12 data).flatMap chunkLine ++ (closeLine ++ sizeLine data.length)))))

structure PayloadHeader where
  stage2Payload : List Byte
  stage2PayloadSize : ℕ

/-- The initializers up to the closing brace; a comma may stand before it. -/
def readBytes : List Token → Option (List Byte × List Token)
  | .punct '\x7d' :: ts => some ([], ts)
  | .word w :: .punct ',' :: ts =>
    match numeral w, readBytes ts with
    | some n, some (bs, rest) =>
      if n < 256 then some (BitVec.ofNat 8 n :: bs, rest) else none
    | _, _ => none
  | .word w :: .punct '\x7d' :: ts =>
    match numeral w with
    | some n => if n < 256 then some ([BitVec.ofNat 8 n], ts) else none
    | none => none
  | _ => none

def wordTokens (ws : List String) : List Token := ws.map fun w => .word w.toList

/-- `static const uint8_t stage2_payload[] =` and the opening brace. -/
def payloadTokens : List Token :=
  wordTokens ["static", "const", "uint8_t", "stage2_payload"] ++
    [.punct '[', .punct ']', .punct '=', .punct '\x7b']

/-- `static const unsigned int stage2_payload_size =`. -/
def sizeTokens : List Token :=
  wordTokens ["static", "const", "unsigned", "int", "stage2_payload_size"] ++ [.punct '=']

/-- The compiler's reading of the file. -/
def readHeader (text : List Char) : Option PayloadHeader := do
  let ts ← (lex (some []) text).dropPrefix? payloadTokens
  let (bs, ts) ← readBytes ts
  match ← ts.dropPrefix? (.punct ';' :: sizeTokens) with
  | [.word w, .punct ';'] => (numeral w).map (PayloadHeader.mk bs)
  | _ => none

/-- `memcpy(stage2_ram, stage2_payload, stage2_payload_size)`; `behind` follows the array. -/
def PayloadHeader.copy (h : PayloadHeader) (behind : ℕ → Byte) (ram : Addr → Byte) :
    Addr → Byte := fun x =>
  let i := (x - ramStartAddr).toNat
  if i < h.stage2PayloadSize then h.stage2Payload.getD i (behind i) else ram x

/-! The lines as the lexer sees them. -/

section Lines

variable {cs : List Char}

def byteTokens (b : Byte) : List Token := [.word (hexByte b), .punct ',']

theorem hexByte_wordChars (b : Byte) : ∀ c ∈ hexByte b, isWordChar c := by
  have hb : b.toNat < 256 := b.isLt
  simp only [hexByte, List.mem_cons, List.not_mem_nil, or_false]
  intro c hc
  rcases hc with rfl | rfl | rfl | rfl
  · decide
  · decide
  · exact isWordChar_digitChar _ (by omega)
  · exact isWordChar_digitChar _ (Nat.mod_lt _ (by decide))

theorem numeral_hexByte (b : Byte) : numeral (hexByte b) = some b.toNat := by
  have hb : b.toNat < 256 := b.isLt
  have hhigh := digitValue_digitChar (b.toNat / 16) (by omega)
  have hlow := digitValue_digitChar (b.toNat % 16) (Nat.mod_lt _ (by decide))
  simp only [hexByte, numeral, List.foldl_cons, List.foldl_nil, hhigh, hlow]
  exact congrArg some (by omega)

theorem lex_hexByte (b : Byte) :
    lex (some []) (hexByte b ++ ',' :: cs) = byteTokens b ++ lex (some []) cs := by
  rw [lex_word (hexByte_wordChars b) (List.cons_ne_nil _ _) (by decide), lex_punct (by decide) rfl]
  rfl

theorem lex_joinBytes {chunk : List Byte} (h : chunk ≠ []) :
    lex (some []) (joinBytes chunk ++ (",\n".toList ++ cs)) =
      chunk.flatMap byteTokens ++ lex (some []) cs := by
  induction chunk with
  | nil => exact absurd rfl h
  | cons b bs ih =>
    cases bs with
    | nil =>
      have hline : lex (some []) ('\n' :: cs) = lex (some []) cs := lex_space (by decide) rfl
      have hlast := @lex_hexByte ('\n' :: cs) b
      rw [hline] at hlast
      simpa [joinBytes] using hlast
    | cons b' bs =>
      have hrest := ih (List.cons_ne_nil _ _)
      have hspace (cs : List Char) : lex (some []) (' ' :: cs) = lex (some []) cs :=
        lex_space (by decide) rfl
      have hfirst := @lex_hexByte (' ' :: (joinBytes (b' :: bs) ++ (",\n".toList ++ cs))) b
      rw [hspace, hrest] at hfirst
      rw [List.flatMap_cons, List.append_assoc, ← hfirst]
      simp [joinBytes]

theorem lex_chunkLine {chunk : List Byte} (h : chunk ≠ []) :
    lex (some []) (chunkLine chunk ++ cs) = chunk.flatMap byteTokens ++ lex (some []) cs := by
  rw [← lex_joinBytes h, chunkLine, List.append_assoc, List.append_assoc]
  rfl

theorem lex_chunkLines {chunks : List (List Byte)} (h : ∀ c ∈ chunks, c ≠ []) :
    lex (some []) (chunks.flatMap chunkLine ++ cs) =
      chunks.flatten.flatMap byteTokens ++ lex (some []) cs := by
  induction chunks with
  | nil => rfl
  | cons c chunks ih =>
    obtain ⟨hc, hrest⟩ := List.forall_mem_cons.mp h
    rw [List.flatMap_cons, List.append_assoc, lex_chunkLine hc, ih hrest, List.flatten_cons,
      List.flatMap_append, List.append_assoc]

end Lines

theorem flatten_blocks {α : Type*} {k : ℕ} (hk : 0 < k) (d : List α) :
    (blocks k d).flatten = d := by
  have htake (n : ℕ) : ((List.range n).map (block k d)).flatten = d.take (k * n) := by
    induction n with
    | zero => simp
    | succ n ih =>
      rw [List.range_succ, List.map_append, List.flatten_append, ih, ← take_append_block]
      simp
  have hall := lt_blockCount_iff hk d (blockCount k d)
  rw [blocks, htake]
  exact List.take_of_length_le (Nat.not_lt.mp (mt hall.mpr (Nat.lt_irrefl _)))

theorem blocks_ne_nil {α : Type*} {k : ℕ} (hk : 0 < k) {d : List α} :
    ∀ c ∈ blocks k d, c ≠ [] := by
  intro c hc
  obtain ⟨i, hi, rfl⟩ := List.mem_map.mp hc
  have hlt := (lt_blockCount_iff hk d i).mp (List.mem_range.mp hi)
  apply List.ne_nil_of_length_pos
  rw [length_block]
  omega

theorem readBytes_tokens (data : List Byte) (ts : List Token) :
    readBytes (data.flatMap byteTokens ++ .punct '\x7d' :: ts) = some (data, ts) := by
  induction data with
  | nil => rfl
  | cons b data ih =>
    have hb : b.toNat < 256 := b.isLt
    rw [List.flatMap_cons, List.append_assoc]
    simp only [byteTokens, List.cons_append, List.nil_append] at ih ⊢
    rw [readBytes, numeral_hexByte, ih]
    simp [hb]

theorem lex_spaced {w cs : List Char} (h : w.all isWordChar) (hw : w ≠ []) :
    lex (some []) (w ++ ' ' :: cs) = .word w :: lex (some []) cs := by
  rw [lex_word (List.all_eq_true.mp h) hw (by decide), lex_space (by decide) rfl]

theorem lex_pragmaLine (cs : List Char) : lex (some []) (pragmaLine ++ cs) = lex (some []) cs := by
  change lex (some []) ('#' :: ("pragma once".toList ++ '\n' :: cs)) = _
  exact lex_directive (by decide)

theorem lex_includeLine (cs : List Char) :
    lex (some []) (includeLine ++ cs) = lex (some []) cs := by
  change lex (some []) ('#' :: ("include <stdint.h>".toList ++ '\n' :: cs)) = _
  exact lex_directive (by decide)

theorem lex_arrayLine (cs : List Char) :
    lex (some []) (arrayLine ++ cs) = payloadTokens ++ lex (some []) cs := by
  change lex (some []) ("static".toList ++ ' ' :: ("const".toList ++ ' ' ::
    ("uint8_t".toList ++ ' ' :: ("stage2_payload".toList ++ '[' :: ']' :: ' ' :: '=' :: ' ' ::
      '\x7b' :: '\n' :: cs)))) = _
  rw [lex_spaced rfl (by decide), lex_spaced rfl (by decide),
    lex_spaced rfl (by decide), lex_word (List.all_eq_true.mp rfl) (by decide) (by decide),
    lex_punct (by decide) rfl, lex_punct (by decide) rfl, lex_space (by decide) rfl,
    lex_punct (by decide) rfl, lex_space (by decide) rfl, lex_punct (by decide) rfl,
    lex_space (by decide) rfl]
  rfl

theorem lex_closeLine (cs : List Char) :
    lex (some []) (closeLine ++ cs) = .punct '\x7d' :: .punct ';' :: lex (some []) cs := by
  change lex (some []) ('\x7d' :: ';' :: '\n' :: cs) = _
  rw [lex_punct (by decide) rfl, lex_punct (by decide) rfl, lex_space (by decide) rfl]

theorem lex_sizeLine (n : ℕ) :
    lex (some []) (sizeLine n) =
      sizeTokens ++ [.word (Nat.toDigits 10 n ++ ['u']), .punct ';'] := by
  have hdigits : ∀ c ∈ Nat.toDigits 10 n ++ ['u'], isWordChar c := by
    intro c hc
    rw [List.mem_append, List.mem_singleton] at hc
    rcases hc with hc | rfl
    · have hdigit : c.isDigit := Nat.isDigit_of_mem_toDigits (by decide) (by decide) hc
      simp [isWordChar, Char.isAlphanum, hdigit]
    · decide
  have hvalue : lex (some []) (Nat.toDigits 10 n ++ 'u' :: ';' :: ['\n']) =
      [.word (Nat.toDigits 10 n ++ ['u']), .punct ';'] := by
    have hend : lex (some []) (';' :: ['\n']) = [.punct ';'] := by decide
    rw [List.append_cons, lex_word hdigits (by simp) (by decide), hend]
  change lex (some []) ("static".toList ++ ' ' :: ("const".toList ++ ' ' ::
    ("unsigned".toList ++ ' ' :: ("int".toList ++ ' ' :: ("stage2_payload_size".toList ++ ' ' ::
      '=' :: ' ' :: (Nat.toDigits 10 n ++ 'u' :: ';' :: ['\n'])))))) = _
  rw [lex_spaced rfl (by decide), lex_spaced rfl (by decide),
    lex_spaced rfl (by decide), lex_spaced rfl (by decide),
    lex_spaced rfl (by decide), lex_punct (by decide) rfl, lex_space (by decide) rfl,
    hvalue]
  rfl

theorem lex_bin2h (data : List Byte) :
    lex (some []) (bin2h data) = payloadTokens ++ (data.flatMap byteTokens ++
      .punct '\x7d' :: .punct ';' ::
        (sizeTokens ++ [.word (Nat.toDigits 10 data.length ++ ['u']), .punct ';'])) := by
  rw [bin2h, lex_pragmaLine, lex_includeLine, lex_space (by decide) rfl, lex_arrayLine,
    lex_chunkLines (blocks_ne_nil (by decide)), flatten_blocks (by decide), lex_closeLine,
    lex_sizeLine]

theorem readHeader_bin2h (data : List Byte) :
    readHeader (bin2h data) = some ⟨data, data.length⟩ := by
  have hdrop (ts us : List Token) : (ts ++ us).dropPrefix? ts = some us :=
    List.dropPrefix?_eq_some_iff.mpr ⟨ts, rfl, BEq.rfl⟩
  have hsize := hdrop (.punct ';' :: sizeTokens)
    [.word (Nat.toDigits 10 data.length ++ ['u']), .punct ';']
  rw [List.cons_append] at hsize
  rw [readHeader, lex_bin2h, hdrop]
  simp only [Option.bind_eq_bind, Option.bind_some, readBytes_tokens, hsize]
  rw [numeral_toDigits]
  rfl

theorem copy_payload (p : Payload) (behind : ℕ → Byte) (ram : Addr → Byte) :
    PayloadHeader.copy ⟨p.bytes, p.bytes.length⟩ behind ram = p.copy ram := by
  funext x
  by_cases hx : (x - ramStartAddr).toNat < p.bytes.length
  · have hspan : InSpan ramStartAddr p.bytes.length x := hx
    rw [PayloadHeader.copy, if_pos hx, Payload.copy, if_pos hspan, List.getD_eq_getElem _ _ hx,
      List.getD_eq_getElem _ _ hx]
  · have hspan : ¬InSpan ramStartAddr p.bytes.length x := hx
    rw [PayloadHeader.copy, if_neg hx, Payload.copy, if_neg hspan]

/-- Any binary comes through `bin2h.py` and the compiler with all its bytes and the right size; that
of stage 2 is what stage 1 puts into RAM, whatever follows the array in the flash. -/
theorem stage2_carried (data : List Byte) :
    readHeader (bin2h data) = some ⟨data, data.length⟩ ∧
      ∀ (p : Payload) (behind : ℕ → Byte) (ram : Addr → Byte), ∃ h,
        readHeader (bin2h p.bytes) = some h ∧ h.copy behind ram = p.copy ram :=
  ⟨readHeader_bin2h data, fun p behind ram =>
    ⟨_, readHeader_bin2h p.bytes, copy_payload p behind ram⟩⟩

end Swindle
