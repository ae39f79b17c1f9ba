import ClusterWatch.CommandLine.Scan
import Mathlib.Data.List.TakeWhile

/-!
# CommandLine — how an option is spelled

An option that takes nothing is its name behind two dashes.  One that takes a value has it behind an
equals sign, where it may be any text, or in the next word, which is then *plain*: a lone dash, or a
word that begins with no dash.

`Spells` relates an option and its value to the words it may be spelled in, and does not say how
words are told apart.  That is what the lemmas of this module settle: a word is classified as plain
exactly if it is (`of_eq_plain_iff`), an option's word is classified as naming it
(`of_word`, `of_attached`), and no other word is (`eq_word_of_long`).  A value is read as a number
exactly if it is a `Numeral` of it (`number?_eq_some_iff`).
-/

namespace ClusterWatch.CommandLine

/-! ### What is spelled -/

/-- The word of an option that has no value attached. -/
def Opt.word (o : Opt) : String := "--" ++ o.name

/-- A word that is a lone dash or begins with no dash. -/
def Plain (word : String) : Prop := word = "-" ∨ word.toList.head? ≠ some '-'

instance (word : String) : Decidable (Plain word) := inferInstanceAs (Decidable (_ ∨ _))

/-- The spellings of an option with a value; the value of one that takes nothing is empty. -/
inductive Spells : Given → List String → Prop
  | flag {o : Opt} (h : o.takes = .nothing) : Spells (o, "") [o.word]
  | attached {o : Opt} (value : String) (h : o.takes ≠ .nothing) :
      Spells (o, value) [o.word ++ "=" ++ value]
  | apart {o : Opt} {value : String} (h : o.takes ≠ .nothing) (plain : Plain value) :
      Spells (o, value) [o.word, value]

/-- A text is a numeral of `n`: digits, one at least, with a plus sign before them or without, and
of a number below 2 ^ 64. -/
def Numeral (text : String) (n : Nat) : Prop :=
  ∃ digits : List Char, (text.toList = digits ∨ text.toList = '+' :: digits) ∧ digits ≠ [] ∧
    (∀ c ∈ digits, c.isDigit) ∧ Decimal.value digits = n ∧ n < Nat.pow 2 64

/-- A text may be the value of an option: it is a numeral if the option takes a number. -/
def Fits (o : Opt) (value : String) : Prop := o.takes = .number → ∃ n, Numeral value n

/-! ### Numerals -/

/-- The digits of a numeral are what is left of it without a plus sign at its start. -/
theorem digits_eq {s digits : List Char} (hd : ∀ c ∈ digits, c.isDigit)
    (h : s = digits ∨ s = '+' :: digits) : (if s.head? = some '+' then s.tail else s) = digits := by
  rcases h with rfl | rfl
  · have hplus : s.head? ≠ some '+' := fun h =>
      absurd (hd '+' (List.mem_of_mem_head? h)) (by decide)
    rw [if_neg hplus]
  · rfl

/-- **A value is read as a number exactly if it is a numeral of it.** -/
theorem number?_eq_some_iff {text : String} {n : Nat} :
    number? text.toList = some n ↔ Numeral text n := by
  constructor
  · intro h
    simp only [number?, Option.ite_none_right_eq_some, Option.some.injEq, List.all_eq_true] at h
    obtain ⟨⟨hne, hd, hlt⟩, rfl⟩ := h
    refine ⟨_, ?_, hne, hd, rfl, hlt⟩
    split
    · next hplus =>
      obtain ⟨rest, htext⟩ : ∃ rest, text.toList = '+' :: rest := List.head?_eq_some_iff.1 hplus
      exact .inr (by rw [htext]; rfl)
    · exact .inl rfl
  · rintro ⟨digits, htext, hne, hd, rfl, hlt⟩
    simp only [number?, digits_eq hd htext]
    exact if_pos ⟨hne, List.all_eq_true.2 hd, hlt⟩

/-- A text is a numeral of one number at most. -/
theorem Numeral.unique {text : String} {m n : Nat} (hm : Numeral text m) (hn : Numeral text n) :
    m = n :=
  Option.some.inj ((number?_eq_some_iff.2 hm).symm.trans (number?_eq_some_iff.2 hn))

/-- **A value is accepted exactly if it fits.** -/
theorem Opt.accepts_iff {o : Opt} {value : String} : o.accepts value = true ↔ Fits o value := by
  simp only [Opt.accepts, Fits, ← number?_eq_some_iff, ← Option.isSome_iff_exists]
  cases o.takes <;> simp

instance (o : Opt) (value : String) : Decidable (Fits o value) :=
  decidable_of_iff _ Opt.accepts_iff

/-! ### The kind of a word -/

/-- No character of a text without an equals sign is one. -/
theorem ne_equals_of_not_mem {s : List Char} (h : '=' ∉ s) : ∀ c ∈ s, decide (c ≠ '=') = true :=
  fun _ hc => decide_eq_true (ne_of_mem_of_not_mem hc h)

theorem splitEquals_of_not_mem {s : List Char} (h : '=' ∉ s) : splitEquals s = (s, none) := by
  rw [splitEquals, List.dropWhile_eq_nil_iff.2 (ne_equals_of_not_mem h)]

theorem splitEquals_append {name value : List Char} (h : '=' ∉ name) :
    splitEquals (name ++ '=' :: value) = (name, some value) := by
  rw [splitEquals, List.dropWhile_append_of_pos (ne_equals_of_not_mem h),
    List.takeWhile_append_of_pos (ne_equals_of_not_mem h)]
  simp

/-- What is split at an equals sign is what stands before it, the sign, and what stands behind. -/
theorem eq_of_splitEquals {s name : List Char} {value : Option (List Char)}
    (h : splitEquals s = (name, value)) :
    s = name ++ (value.elim [] ('=' :: ·)) := by
  have hs := List.takeWhile_append_dropWhile (p := (· ≠ '=')) (l := s)
  have hhead := List.head?_dropWhile_not (· ≠ '=') s
  unfold splitEquals at h
  split at h
  · cases h
    simp
  · next c rest hdrop =>
    cases h
    rw [hdrop] at hs hhead
    obtain rfl : c = '=' := by simpa using hhead
    exact hs.symm

theorem of_eq_plain_iff {word : String} : Word.of word = .plain ↔ Plain word := by
  have hdash : word = "-" ↔ word.toList = ['-'] := String.ext_iff
  rw [Plain, hdash, Word.of]
  split
  case h_4 hshort =>
    refine iff_of_true rfl (or_iff_not_imp_right.2 fun hhead => ?_)
    obtain ⟨rest, hrest⟩ := List.head?_eq_some_iff.1 (not_not.1 hhead)
    cases rest with
    | nil => exact hrest
    | cons c letters => exact (hshort c letters hrest).elim
  all_goals simp_all

/-- A word with two dashes and a name is long. -/
theorem of_long {word : String} {c : Char} {rest : List Char}
    (h : word.toList = '-' :: '-' :: c :: rest) :
    Word.of word = .long (splitEquals (c :: rest)).1 (splitEquals (c :: rest)).2 := by
  rw [Word.of, h]
  rfl

/-- The names of the options hold no equals sign and are not empty. -/
theorem Opt.exists_name_eq_cons (o : Opt) :
    ∃ c rest, o.name.toList = c :: rest ∧ '=' ∉ o.name.toList := by
  cases o <;> exact ⟨_, _, rfl, by decide⟩

theorem Opt.toList_word (o : Opt) : o.word.toList = '-' :: '-' :: o.name.toList := by
  rw [Opt.word, String.toList_append]
  rfl

theorem of_word (o : Opt) : Word.of o.word = .long o.name.toList none := by
  obtain ⟨c, rest, hname, heq⟩ := o.exists_name_eq_cons
  rw [of_long (o.toList_word.trans (by rw [hname])), ← hname, splitEquals_of_not_mem heq]

example : Level.top.options.map Opt.word = ["--master-url", "--plain-json", "--jsonp-callback",
      "--timeout-ms", "--otlp-endpoint", "--otlp-token"] ∧
    Level.status.options.map Opt.word = ["--raw"] ∧
    Level.watch.options.map Opt.word = ["--interval-ms", "--raw"] := by decide

theorem of_attached (o : Opt) (value : String) :
    Word.of (o.word ++ "=" ++ value) = .long o.name.toList (some value.toList) := by
  obtain ⟨c, rest, hname, heq⟩ := o.exists_name_eq_cons
  have hword : (o.word ++ "=" ++ value).toList =
      '-' :: '-' :: c :: (rest ++ '=' :: value.toList) := by
    simp [o.toList_word, hname]
  rw [of_long hword, ← List.cons_append, ← hname, splitEquals_append heq]

/-- The options of a level are told apart by their names. -/
theorem option?_eq_some_iff {l : Level} {name : List Char} {o : Opt} :
    l.option? name = some o ↔ o ∈ l.options ∧ o.name.toList = name := by
  constructor
  · intro h
    exact ⟨List.mem_of_find?_eq_some h, by simpa using List.find?_some h⟩
  · rintro ⟨ho, rfl⟩
    cases l <;> cases o <;> revert ho <;> decide

/-- **A long word that carries the name of an option is that option's word**, with the value behind
an equals sign if it has one attached. -/
theorem eq_word_of_long {word : String} {o : Opt} {attached : Option (List Char)}
    (h : Word.of word = .long o.name.toList attached) :
    word = attached.elim o.word fun value => o.word ++ "=" ++ String.ofList value := by
  have hlist : word.toList = o.word.toList ++ attached.elim [] ('=' :: ·) := by
    rw [o.toList_word]
    unfold Word.of at h
    split at h <;> simp only [reduceCtorEq, Word.long.injEq] at h
    next c rest hword =>
    rw [hword, eq_of_splitEquals (Prod.ext h.1 h.2)]
    rfl
  apply String.ext
  cases attached <;> simpa using hlist

/-! ### Commands -/

/-- Among pairs that differ in their keys, looking a key up finds the pair that has it. -/
theorem lookup_eq_some_iff_mem {α β : Type} [BEq α] [LawfulBEq α] {pairs : List (α × β)} {k : α}
    {v : β} (h : (pairs.map Prod.fst).Nodup) : pairs.lookup k = some v ↔ (k, v) ∈ pairs := by
  rw [List.lookup_eq_some_iff]
  constructor
  · rintro ⟨before, behind, rfl, -⟩
    simp
  · intro hmem
    obtain ⟨before, behind, rfl⟩ := List.append_of_mem hmem
    refine ⟨before, behind, rfl, fun p hp => ?_⟩
    have hdisjoint := (List.nodup_append.1 (List.map_append ▸ h)).2.2
    simpa using (hdisjoint p.1 (List.mem_map_of_mem hp) k (by simp)).symm

theorem lookup_commands {l c : Level} {name : String} :
    l.commands.lookup name = some c ↔ (name, c) ∈ l.commands :=
  lookup_eq_some_iff_mem (by cases l <;> decide)

/-- The commands of a level are plain words. -/
theorem plain_of_isCommand {l : Level} {word : String} (h : l.isCommand word = true) :
    Plain word := by
  rw [Level.isCommand, Bool.or_eq_true, Option.isSome_iff_exists, Bool.and_eq_true,
    decide_eq_true_eq] at h
  rcases h with ⟨c, hc⟩ | ⟨-, rfl⟩
  · have hmem := lookup_commands.1 hc
    cases l <;> simp only [Level.commands, List.mem_cons, Prod.mk.injEq, List.not_mem_nil,
      or_false] at hmem
    · obtain ⟨rfl, -⟩ := hmem
      decide
    · rcases hmem with ⟨rfl, -⟩ | ⟨rfl, -⟩ <;> decide
  · decide

end ClusterWatch.CommandLine
