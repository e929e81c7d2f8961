import Mathlib
import JosfraPge.Foundation.RunRules
import JosfraPge.Foundation.XmlScan

/-!
# XML 1.0, encodings

A file is held as the text that its bytes make in UTF-8.  A document can declare that each of its bytes
stands for one character; a reader takes such an encoding when the characters of markup, and no other
bytes, stand for themselves.

* `decode_cut`: a document is cut at a character of markup in either form alike;
* `decode_wordFirst`, `occurs_decode`: so are words of such characters.
-/

namespace JosfraPge.Foundation.XmlEncoding

open JosfraPge.Foundation.LineText
open JosfraPge.Foundation.RunRules
open JosfraPge.Foundation.XmlScan

/-! ## Encodings -/

/-- A character that XML has a meaning for. -/
def isSyntaxChar (c : Char) : Bool :=
  isSpace c || c.isAlphanum || "!\"#%&'()*+,-./:;<=>?[]_|".toList.contains c

/-- An encoding of one byte a character, in which the characters of markup stand for themselves. -/
structure Table where
  char : ℕ → Option Char
  kept : ∀ c, isSyntaxChar c = true → char c.toNat = some c
  only : ∀ b c, char b = some c → isSyntaxChar c = true → b = c.toNat

inductive Encoding where
  | utf8
  | bytes (table : Table)

theorem toNat_of_isSyntaxChar {c : Char} (h : isSyntaxChar c = true) : c.toNat < 128 := by
  have hlisted : ∀ d ∈ "!\"#%&'()*+,-./:;<=>?[]_|".toList, d.toNat < 128 := by decide
  unfold isSyntaxChar at h
  rw [Bool.or_eq_true, Bool.or_eq_true] at h
  rcases h with (h | h) | h
  · have hspace : c = ' ' ∨ c = '\t' ∨ c = '\n' ∨ c = '\r' := by
      simpa [isSpace, or_assoc] using h
    rcases hspace with rfl | rfl | rfl | rfl <;> decide
  · have h : (c.isUpper || c.isLower || c.isDigit) = true := h
    simp only [Char.isUpper, Char.isLower, Char.isDigit, Bool.or_eq_true, Bool.and_eq_true,
      decide_eq_true_eq, UInt32.le_iff_toNat_le] at h
    have hcode : c.toNat = c.val.toNat := rfl
    have hupper : 'Z'.val.toNat = 90 := rfl
    have hlower : 'z'.val.toNat = 122 := rfl
    have hdigit : '9'.val.toNat = 57 := rfl
    omega
  · exact hlisted c (by simpa using h)

/-- The character with a code below a bound. -/
def charBelow (bound b : ℕ) : Option Char := if b < bound then some (Char.ofNat b) else none

theorem charBelow_toNat {bound : ℕ} {c : Char} (h : c.toNat < bound) :
    charBelow bound c.toNat = some c := by
  rw [charBelow, if_pos h, Char.ofNat_toNat]

theorem charBelow_inv {bound b : ℕ} (hbound : bound ≤ 256) {c : Char}
    (h : charBelow bound b = some c) : b = c.toNat := by
  unfold charBelow at h
  split at h
  · rename_i hb
    have hvalid : b.isValidChar := Or.inl (by omega)
    rw [← Option.some.inj h, Char.ofNat, dif_pos hvalid]
    rfl
  · exact absurd h (by simp)

/-- `US-ASCII` -/
def usAscii : Table where
  char := charBelow 128
  kept := fun _ h => charBelow_toNat (toNat_of_isSyntaxChar h)
  only := fun _ _ h _ => charBelow_inv (by decide) h

/-- `ISO-8859-1` -/
def latin1 : Table where
  char := charBelow 256
  kept := fun _ h => charBelow_toNat (Nat.lt_trans (toNat_of_isSyntaxChar h) (by decide))
  only := fun _ _ h _ => charBelow_inv (by decide) h

/-- The encodings that a reader knows beside its own, by the name that a document declares. -/
abbrev Codecs := Text → Option Table

def noCodecs : Codecs := fun _ => none

/-- The encoding of a name, whose letters may stand in either case.  A file that is read as far as the
name is not in an encoding of two bytes a character. -/
def encodingNamed (codecs : Codecs) (name : Text) : Option Encoding :=
  let lower := name.map Char.toLower
  if lower = "utf-8".toList then some .utf8
  else if lower = "us-ascii".toList then some (.bytes usAscii)
  else if lower = "iso-8859-1".toList then some (.bytes latin1)
  else if lower = "utf-16".toList ∨ lower = "utf-16be".toList ∨ lower = "utf-16le".toList then none
  else (codecs name).map .bytes

/-! ## Decoding -/

/-- The bytes of a character in UTF-8. -/
def utf8Bytes (c : Char) : List ℕ := (String.utf8EncodeChar c).map UInt8.toNat

/-- What the bytes of a character stand for. -/
def Encoding.decodeChar : Encoding → Char → Option Text
  | .utf8, c => some [c]
  | .bytes table, c => (utf8Bytes c).mapM table.char

/-- What a text, as the bytes it is in UTF-8, stands for. -/
def Encoding.decode (enc : Encoding) : Text → Option Text
  | [] => some []
  | c :: cs => (enc.decodeChar c).bind fun s => (enc.decode cs).map (s ++ ·)

theorem utf8Bytes_of_lt {c : Char} (h : c.toNat < 128) : utf8Bytes c = [c.toNat] := by
  have hv : c.val.toNat ≤ 0x7f := Nat.le_of_lt_succ h
  have hbyte : (UInt8.ofNat c.val.toNat).toNat = c.val.toNat := by
    rw [UInt8.toNat_ofNat']
    exact Nat.mod_eq_of_lt (by omega)
  unfold utf8Bytes String.utf8EncodeChar
  rw [if_pos hv]
  exact congrArg (fun b => [b]) hbyte

theorem utf8Bytes_of_ge {c : Char} (h : 128 ≤ c.toNat) : ∀ b ∈ utf8Bytes c, 128 ≤ b := by
  have hv : ¬ c.val.toNat ≤ 0x7f := fun hle => absurd h (Nat.not_le_of_lt (Nat.lt_succ_of_le hle))
  have hlead : ∀ v m k : ℕ, 128 ≤ k → m ≤ 64 → m + k ≤ 256 → 0 < m →
      128 ≤ (UInt8.ofNat (v % m + k)).toNat := by
    intro v m k hk hm hmk hpos
    rw [UInt8.toNat_ofNat']
    have hlt := Nat.mod_lt v hpos
    rw [Nat.mod_eq_of_lt (by omega)]
    omega
  intro b hb
  unfold utf8Bytes String.utf8EncodeChar at hb
  rw [if_neg hv] at hb
  split at hb
  · simp only [List.map_cons, List.map_nil, List.mem_cons, List.not_mem_nil, or_false] at hb
    rcases hb with rfl | rfl
    · exact hlead _ 0x20 0xc0 (by decide) (by decide) (by decide) (by decide)
    · exact hlead _ 0x40 0x80 (by decide) (by decide) (by decide) (by decide)
  · split at hb
    · simp only [List.map_cons, List.map_nil, List.mem_cons, List.not_mem_nil, or_false] at hb
      rcases hb with rfl | rfl | rfl
      · exact hlead _ 0x10 0xe0 (by decide) (by decide) (by decide) (by decide)
      · exact hlead _ 0x40 0x80 (by decide) (by decide) (by decide) (by decide)
      · exact hlead _ 0x40 0x80 (by decide) (by decide) (by decide) (by decide)
    · simp only [List.map_cons, List.map_nil, List.mem_cons, List.not_mem_nil, or_false] at hb
      rcases hb with rfl | rfl | rfl | rfl
      · exact hlead _ 0x08 0xf0 (by decide) (by decide) (by decide) (by decide)
      · exact hlead _ 0x40 0x80 (by decide) (by decide) (by decide) (by decide)
      · exact hlead _ 0x40 0x80 (by decide) (by decide) (by decide) (by decide)
      · exact hlead _ 0x40 0x80 (by decide) (by decide) (by decide) (by decide)

section Decode

variable {enc : Encoding}

theorem decodeChar_syntaxChar {c : Char} (h : isSyntaxChar c = true) : enc.decodeChar c = some [c] := by
  cases enc with
  | utf8 => rfl
  | bytes table =>
      rw [Encoding.decodeChar, utf8Bytes_of_lt (toNat_of_isSyntaxChar h), List.mapM_cons,
        table.kept c h]
      rfl

/-- Only itself stands for a character of markup. -/
theorem decodeChar_only {c d : Char} {s : Text} (hd : isSyntaxChar d = true) (hmem : d ∈ s)
    (h : enc.decodeChar c = some s) : c = d ∧ s = [d] := by
  cases enc with
  | utf8 =>
      obtain rfl := Option.some.inj h
      obtain rfl := List.mem_singleton.1 hmem
      exact ⟨rfl, rfl⟩
  | bytes table =>
      have hbyte : ∃ b ∈ utf8Bytes c, table.char b = some d := mem_mapM h hmem
      obtain ⟨b, hb, hchar⟩ := hbyte
      have hcode : b = d.toNat := table.only b d hchar hd
      have hlt := toNat_of_isSyntaxChar hd
      by_cases hc : c.toNat < 128
      · rw [utf8Bytes_of_lt hc, List.mem_singleton] at hb
        have hsame : c = d := Char.toNat_inj.1 (hb.symm.trans hcode)
        rw [← hsame] at hd ⊢
        exact ⟨rfl, Option.some.inj (h.symm.trans (decodeChar_syntaxChar hd))⟩
      · have hge := utf8Bytes_of_ge (Nat.le_of_not_lt hc) b hb
        omega

theorem decodeChar_ne_nil {c : Char} {s : Text} (h : enc.decodeChar c = some s) : s ≠ [] := by
  cases enc with
  | utf8 => exact Option.some.inj h ▸ List.cons_ne_nil c []
  | bytes table =>
      obtain ⟨b, bs, hbytes⟩ := List.exists_cons_of_ne_nil (String.utf8EncodeChar_ne_nil (c := c))
      rw [Encoding.decodeChar, utf8Bytes, hbytes, List.map_cons, List.mapM_cons] at h
      obtain ⟨d, -, h⟩ := Option.bind_eq_some_iff.1 h
      obtain ⟨ds, -, h⟩ := Option.bind_eq_some_iff.1 h
      exact Option.some.inj h ▸ List.cons_ne_nil d ds

theorem decode_cons {c : Char} {cs s : Text} :
    enc.decode (c :: cs) = some s ↔
      ∃ u v, enc.decodeChar c = some u ∧ enc.decode cs = some v ∧ u ++ v = s := by
  rw [Encoding.decode, Option.bind_eq_some_iff]
  constructor
  · rintro ⟨u, hu, h⟩
    obtain ⟨v, hv, hs⟩ := Option.map_eq_some_iff.1 h
    exact ⟨u, v, hu, hv, hs⟩
  · rintro ⟨u, v, hu, hv, hs⟩
    exact ⟨u, hu, Option.map_eq_some_iff.2 ⟨v, hv, hs⟩⟩

theorem decode_utf8 (s : Text) : Encoding.utf8.decode s = some s := by
  induction s with
  | nil => rfl
  | cons c cs ih => exact decode_cons.2 ⟨[c], cs, rfl, ih, rfl⟩

theorem decode_eq_nil {raw : Text} (h : enc.decode raw = some []) : raw = [] := by
  cases raw with
  | nil => rfl
  | cons c cs =>
      obtain ⟨u, v, hu, -, hnil⟩ := decode_cons.1 h
      exact absurd (List.append_eq_nil_iff.1 hnil).1 (decodeChar_ne_nil hu)

/-- Words of markup are themselves. -/
theorem decode_syntaxText {w : Text} (h : ∀ c ∈ w, isSyntaxChar c = true) : enc.decode w = some w := by
  induction w with
  | nil => rfl
  | cons c cs ih =>
      have hcs := ih fun d hd => h d (List.mem_cons_of_mem _ hd)
      exact decode_cons.2 ⟨[c], cs, decodeChar_syntaxChar (h c List.mem_cons_self), hcs, rfl⟩

/-- **A text is cut at a character of markup in either form alike.** -/
theorem decode_cut {raw u v : Text} {d : Char} (hd : isSyntaxChar d = true)
    (h : enc.decode raw = some (u ++ d :: v)) :
    ∃ ru rv, raw = ru ++ d :: rv ∧ enc.decode ru = some u ∧ enc.decode rv = some v := by
  induction raw generalizing u with
  | nil => exact absurd (Option.some.inj h) (by simp)
  | cons c cs ih =>
      obtain ⟨s, s', hs, hs', happend⟩ := decode_cons.1 h
      rcases List.append_eq_append_iff.1 happend with ⟨w, hu, hrest⟩ | ⟨w, hsw, hrest⟩
      · -- the character stands behind the first one
        rw [hrest] at hs'
        obtain ⟨ru, rv, hraw, hru, hrv⟩ := ih hs'
        refine ⟨c :: ru, rv, by rw [hraw]; rfl, ?_, hrv⟩
        exact decode_cons.2 ⟨s, w, hs, hru, hu.symm⟩
      · cases w with
        | nil =>
            rw [List.append_nil] at hsw
            rw [List.nil_append] at hrest
            rw [← hrest] at hs'
            obtain ⟨ru, rv, hraw, hru, hrv⟩ := @ih [] hs'
            refine ⟨c :: ru, rv, by rw [hraw]; rfl, ?_, hrv⟩
            exact decode_cons.2 ⟨s, [], hs, hru, by rw [List.append_nil, hsw]⟩
        | cons d' w =>
            -- the first character is the one
            obtain ⟨rfl, hv⟩ := List.cons.inj hrest
            have hmem : d ∈ s := by
              rw [hsw]
              exact List.mem_append_right u List.mem_cons_self
            obtain ⟨rfl, hone⟩ := decodeChar_only hd hmem hs
            rw [hone] at hsw
            have hlen := congrArg List.length hsw
            simp only [List.length_append, List.length_cons, List.length_nil] at hlen
            obtain rfl : u = [] := List.length_eq_zero_iff.1 (by omega)
            obtain rfl : w = [] := List.length_eq_zero_iff.1 (by omega)
            exact ⟨[], cs, rfl, rfl, hs'.trans (congrArg some hv.symm)⟩

theorem decode_append {a b s : Text} :
    enc.decode (a ++ b) = some s ↔
      ∃ u v, enc.decode a = some u ∧ enc.decode b = some v ∧ u ++ v = s := by
  induction a generalizing s with
  | nil =>
      constructor
      · exact fun h => ⟨[], s, rfl, h, rfl⟩
      · rintro ⟨u, v, hu, hv, rfl⟩
        obtain rfl := Option.some.inj hu
        exact hv
  | cons c cs ih =>
      rw [List.cons_append, decode_cons]
      constructor
      · rintro ⟨u, v, hu, hv, rfl⟩
        obtain ⟨v₁, v₂, hv₁, hv₂, rfl⟩ := ih.1 hv
        exact ⟨u ++ v₁, v₂, decode_cons.2 ⟨u, v₁, hu, hv₁, rfl⟩, hv₂, List.append_assoc u v₁ v₂⟩
      · rintro ⟨u, v, hu, hv, rfl⟩
        obtain ⟨u₁, u₂, hu₁, hu₂, rfl⟩ := decode_cons.1 hu
        exact ⟨u₁, u₂ ++ v, hu₁, ih.2 ⟨u₂, v, hu₂, hv, rfl⟩, (List.append_assoc u₁ u₂ v).symm⟩

theorem decode_wordFirst {raw w v : Text} (hw : ∀ c ∈ w, isSyntaxChar c = true)
    (h : enc.decode raw = some (w ++ v)) : ∃ rv, raw = w ++ rv ∧ enc.decode rv = some v := by
  induction w generalizing raw with
  | nil => exact ⟨raw, rfl, h⟩
  | cons d w ih =>
      obtain ⟨ru, rv, hraw, hru, hrv⟩ := @decode_cut enc raw [] (w ++ v) d (hw d List.mem_cons_self) h
      obtain ⟨rest, hrest, hdecode⟩ := ih (fun c hc => hw c (List.mem_cons_of_mem _ hc)) hrv
      rw [decode_eq_nil hru, List.nil_append] at hraw
      exact ⟨rest, by rw [hraw, hrest, List.cons_append], hdecode⟩

/-- Only itself stands for a word of markup. -/
theorem decode_eq_syntax {raw w : Text} (hw : ∀ c ∈ w, isSyntaxChar c = true)
    (h : enc.decode raw = some w) : raw = w := by
  obtain ⟨rv, hraw, hrv⟩ := @decode_wordFirst enc raw w [] hw (by rw [List.append_nil, h])
  rw [hraw, decode_eq_nil hrv, List.append_nil]

theorem mem_decode {raw s : Text} {d : Char} (hd : isSyntaxChar d = true)
    (h : enc.decode raw = some s) : d ∈ s ↔ d ∈ raw := by
  constructor
  · intro hmem
    obtain ⟨u, v, rfl⟩ := List.append_of_mem hmem
    obtain ⟨ru, rv, hraw, -, -⟩ := decode_cut hd h
    rw [hraw]
    exact List.mem_append_right ru List.mem_cons_self
  · intro hmem
    obtain ⟨u, v, rfl⟩ := List.append_of_mem hmem
    obtain ⟨u', v', -, hv', rfl⟩ := decode_append.1 h
    obtain ⟨w, w', hw, -, rfl⟩ := decode_cons.1 hv'
    obtain rfl := Option.some.inj ((decodeChar_syntaxChar hd).symm.trans hw)
    exact List.mem_append_right u' List.mem_cons_self

/-- **A word of markup stands in a text in either form alike.** -/
theorem occurs_decode {raw s w : Text} (hw : ∀ c ∈ w, isSyntaxChar c = true)
    (h : enc.decode raw = some s) : Occurs w s ↔ Occurs w raw := by
  cases w with
  | nil => exact iff_of_true List.nil_infix List.nil_infix
  | cons d w =>
      have hrest : ∀ c ∈ w, isSyntaxChar c = true := fun c hc => hw c (List.mem_cons_of_mem _ hc)
      constructor
      · rintro ⟨u, v, rfl⟩
        rw [List.append_assoc, List.cons_append] at h
        obtain ⟨ru, rv, hraw, -, hrv⟩ := decode_cut (hw d List.mem_cons_self) h
        obtain ⟨tail, htail, -⟩ := decode_wordFirst hrest hrv
        exact ⟨ru, tail, by rw [hraw, htail, List.append_assoc, List.cons_append]⟩
      · rintro ⟨u, v, rfl⟩
        obtain ⟨front, v', hfront, -, rfl⟩ := decode_append.1 h
        obtain ⟨u', w', -, hw', rfl⟩ := decode_append.1 hfront
        obtain rfl := Option.some.inj ((decode_syntaxText hw).symm.trans hw')
        exact ⟨u', v', rfl⟩

end Decode

end JosfraPge.Foundation.XmlEncoding
