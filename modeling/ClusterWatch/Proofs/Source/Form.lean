import ClusterWatch.Proofs.Text.Utf8
import ClusterWatch.Source.Query
import ClusterWatch.Text.Pieces

/-!
# Form — a parameter is read back from a query as it was written

`Query.parameters` reads a query as web forms are read: pairs with `&` between them, the first `=`
of a pair behind its name, a plus sign for a space, and a percent sign with two hexadecimal digits
for a byte of the text.

A form names each byte on its own, and never by a separator (`formByte_ne`), so the bytes come back
one by one (`unescape_formByte`), and the texts with them (`formDecode_formEncode`).  A query of one
pair is therefore read as that pair (`parameters_append`).
-/

namespace ClusterWatch.Query
open Text

/-! ### Reading a form -/

/-- A character of a form, a plus sign taken for the space that it stands for. -/
def spaced (c : Char) : Char := if c = '+' then ' ' else c

/-- The text that is written in a form. -/
def formDecode (s : List Char) : List Char := decodeLossy (unescape (s.map spaced))

/-- A name and its value; one without an equals sign has the empty value. -/
def parameter (pair : List Char) : List Char × List Char :=
  (formDecode (splitAt (· = '=') pair).1, formDecode (splitAt (· = '=') pair).2.tail)

/-- The names and values in a query. -/
def parameters (query : List Char) : List (List Char × List Char) :=
  ((pieces (· = '&') query).filter (· ≠ [])).map parameter

/-! ### Bytes -/

theorem unescape_cons {c : Char} (h : c ≠ '%') (s : List Char) :
    unescape (c :: s) = utf8Char c ++ unescape s := by
  rw [unescape]
  intro a b t hc
  exact absurd hc h

theorem unescape_percent (b : UInt8) (s : List Char) :
    unescape (percent b ++ s) = b :: unescape s := by
  have hb : b.toNat < 256 := b.toNat_lt
  have hbyte : 16 * (b.toNat / 16) + b.toNat % 16 = b.toNat := Nat.div_add_mod b.toNat 16
  simp only [percent, List.cons_append, List.nil_append]
  rw [unescape, hexValue?_upperHexDigit (by omega), hexValue?_upperHexDigit (by omega)]
  simp only [hbyte, UInt8.ofNat_toNat]

/-- What is true of all bytes can be tried on all. -/
theorem forall_byte {P : UInt8 → Prop} (h : ∀ n ∈ List.range 256, P (UInt8.ofNat n)) (b : UInt8) :
    P b := by
  have hb := h b.toNat (List.mem_range.2 b.toNat_lt)
  rwa [UInt8.ofNat_toNat] at hb

/-- The digits of an escape have no meaning in a query. -/
theorem upperHexDigit_ne {d : Nat} (h : d < 16) :
    upperHexDigit d ≠ '+' ∧ upperHexDigit d ≠ '&' ∧ upperHexDigit d ≠ '=' ∧
      upperHexDigit d ≠ '?' := by
  have all : ∀ d ∈ List.range 16, upperHexDigit d ≠ '+' ∧ upperHexDigit d ≠ '&' ∧
      upperHexDigit d ≠ '=' ∧ upperHexDigit d ≠ '?' := by decide
  exact all d (List.mem_range.2 h)

/-- A byte that stands for itself is that character's only byte, and has no meaning in a query. -/
theorem plain_byte (b : UInt8) : isPlain b = true →
    utf8Char (Char.ofNat b.toNat) = [b] ∧ Char.ofNat b.toNat ≠ '+' ∧ Char.ofNat b.toNat ≠ '%' ∧
      Char.ofNat b.toNat ≠ '&' ∧ Char.ofNat b.toNat ≠ '=' :=
  forall_byte (P := fun b => isPlain b = true → utf8Char (Char.ofNat b.toNat) = [b] ∧
    Char.ofNat b.toNat ≠ '+' ∧ Char.ofNat b.toNat ≠ '%' ∧ Char.ofNat b.toNat ≠ '&' ∧
    Char.ofNat b.toNat ≠ '=') (by decide +kernel) b

theorem mem_percent {b : UInt8} {c : Char} (h : c ∈ percent b) :
    c ≠ '+' ∧ c ≠ '&' ∧ c ≠ '=' ∧ c ≠ '?' := by
  have hb : b.toNat < 256 := b.toNat_lt
  simp only [percent, List.mem_cons, List.not_mem_nil, or_false] at h
  rcases h with rfl | rfl | rfl
  · decide
  · exact upperHexDigit_ne (by omega)
  · exact upperHexDigit_ne (by omega)

theorem formByte_ne {b : UInt8} {c : Char} (h : c ∈ formByte b) : c ≠ '&' ∧ c ≠ '=' := by
  rw [formByte] at h
  split at h
  · obtain rfl := List.mem_singleton.1 h
    decide
  split at h
  next hplain =>
    obtain rfl := List.mem_singleton.1 h
    exact (plain_byte b hplain).2.2.2
  next => exact ⟨(mem_percent h).2.1, (mem_percent h).2.2.1⟩

/-- A byte comes back from how it is written. -/
theorem unescape_formByte (b : UInt8) (s : List Char) :
    unescape ((formByte b).map spaced ++ s) = b :: unescape s := by
  rw [formByte]
  split
  next h =>
    have hb : b = 0x20 := UInt8.toNat_inj.1 h
    rw [hb]
    exact unescape_cons (c := ' ') (by decide) s
  split
  next hplain =>
    obtain ⟨hbyte, hplus, hpercent, -, -⟩ := plain_byte b hplain
    have hc : spaced (Char.ofNat b.toNat) = Char.ofNat b.toNat := if_neg hplus
    rw [List.map_singleton, hc, List.singleton_append, unescape_cons hpercent, hbyte,
      List.singleton_append]
  next =>
    have hmap : (percent b).map spaced = percent b := by
      refine (List.map_congr_left fun c hc => ?_).trans (List.map_id _)
      exact if_neg (mem_percent hc).1
    rw [hmap, unescape_percent]

/-! ### Texts -/

theorem unescape_forms (bs : List UInt8) : unescape ((bs.flatMap formByte).map spaced) = bs := by
  induction bs with
  | nil => rfl
  | cons b bs ih => rw [List.flatMap_cons, List.map_append, unescape_formByte, ih]

/-- **A text is read from a form as it was written into it.** -/
theorem formDecode_formEncode (s : List Char) : formDecode (formEncode s) = s := by
  rw [formDecode, formEncode, unescape_forms, decodeLossy_utf8]

theorem formEncode_ne {s : List Char} {c : Char} (h : c ∈ formEncode s) : c ≠ '&' ∧ c ≠ '=' := by
  obtain ⟨b, -, hc⟩ := List.mem_flatMap.1 h
  exact formByte_ne hc

/-! ### Pairs -/

theorem parameter_pair (name value : List Char) :
    parameter (formEncode name ++ ['='] ++ formEncode value) = (name, value) := by
  have hname : ∀ c ∈ formEncode name, decide (c = '=') = false := fun c hc =>
    decide_eq_false (formEncode_ne hc).2
  have hsplit := splitAt_append_of_not hname (d := '=') rfl (formEncode value)
  rw [List.append_assoc, List.singleton_append, parameter, hsplit, List.tail_cons,
    formDecode_formEncode, formDecode_formEncode]

/-- **The only parameter of a query is read as it was written.** -/
theorem parameters_append (name value : List Char) :
    parameters (append none name value) = [(name, value)] := by
  have hne : ∀ c ∈ formEncode name ++ ['='] ++ formEncode value, decide (c = '&') = false := by
    intro c hc
    rcases List.mem_append.1 hc with hc | hc
    · rcases List.mem_append.1 hc with hc | hc
      · exact decide_eq_false (formEncode_ne hc).1
      · obtain rfl := List.mem_singleton.1 hc
        rfl
    · exact decide_eq_false (formEncode_ne hc).1
  rw [parameters, append, pieces_eq_singleton hne, List.filter_cons_of_pos (by simp),
    List.filter_nil, List.map_singleton, parameter_pair]

end ClusterWatch.Query
