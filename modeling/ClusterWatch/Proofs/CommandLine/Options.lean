import ClusterWatch.Proofs.CommandLine.Spelling
import Mathlib.Data.List.Nodup

/-!
# CommandLine — the options of a level

Options are written one behind the other, in any order and each in either spelling
(`Spelled`); they are `Proper` for a level if they are options of it, none is given twice, and their
values fit.  Where the options end, the line ends or a command follows (`Ends`).

**The words of a level are scanned exactly as they are written** (`scan_fresh_iff`): the scan ends
in some way with some options settled if and only if the words spell these options, properly, and go
on in that way behind them.

A scan settles an option only when the next one begins, so both directions speak of the options a
state of the scan *settles* to, not of those it holds.  Soundness rests on what the words can begin
with (`scan_begins`), completeness on what one spelling adds to the settled options
(`scan_spells`).
-/

namespace ClusterWatch.CommandLine

/-- The spelling of options one behind the other. -/
inductive Spelled : List Given → List String → Prop
  | nil : Spelled [] []
  | cons {g : Given} {given : List Given} {words rest : List String} (head : Spells g words)
      (tail : Spelled given rest) : Spelled (g :: given) (words ++ rest)

/-- Options that may be given together for a level. -/
structure Proper (l : Level) (given : List Given) : Prop where
  known : ∀ g ∈ given, g.1 ∈ l.options
  once : (given.map Prod.fst).Nodup
  fits : ∀ g ∈ given, Fits g.1 g.2

instance (l : Level) (given : List Given) : Decidable (Proper l given) :=
  decidable_of_iff ((∀ g ∈ given, g.1 ∈ l.options) ∧ (given.map Prod.fst).Nodup ∧
    ∀ g ∈ given, Fits g.1 g.2)
    ⟨fun ⟨known, once, fits⟩ => ⟨known, once, fits⟩, fun h => ⟨h.known, h.once, h.fits⟩⟩

/-- Words that give a level its options. -/
structure Written (l : Level) (given : List Given) (words : List String) : Prop where
  spelled : Spelled given words
  proper : Proper l given

/-- How the words behind the options of a level go on: not at all, or with a command of it. -/
inductive Ends (l : Level) : List String → Ending → Prop
  | line : Ends l [] .ofLine
  | level {name : String} {command : Level} {words : List String}
      (h : (name, command) ∈ l.commands) : Ends l (name :: words) (.ofLevel command words)

variable {l : Level} {s s' : Scan} {o : Opt} {value : String} {given given' all : List Given}
  {words rest : List String} {e : Ending}

/-! ### Giving an option -/

theorem isSome_lookup : (given.lookup o).isSome = true ↔ o ∈ given.map Prod.fst := by
  rw [← not_iff_not, Bool.not_eq_true, Option.isSome_eq_false_iff, Option.isNone_iff_eq_none,
    List.lookup_eq_none_iff, List.mem_map]
  simp only [bne_iff_ne, ne_eq, not_exists, not_and]
  exact forall₂_congr fun p _ => not_congr eq_comm

/-- An option can be given if it has not been given and its value fits. -/
theorem give_eq_ok_iff : Scan.give given o value = .ok given' ↔
    o ∉ given.map Prod.fst ∧ Fits o value ∧ given' = given ++ [(o, value)] := by
  rw [Scan.give, ← isSome_lookup, ← Opt.accepts_iff]
  cases (given.lookup o).isSome <;> cases o.accepts value <;> simp [eq_comm]

/-- What is given properly stays so with one option more. -/
theorem Proper.give (hp : Proper l given) (ho : o ∈ l.options)
    (h : Scan.give given o value = .ok given') : Proper l given' := by
  obtain ⟨hnew, hfits, rfl⟩ := give_eq_ok_iff.1 h
  have hone : ∀ g ∈ [(o, value)], g.1 ∈ l.options ∧ Fits g.1 g.2 := by simpa using ⟨ho, hfits⟩
  refine ⟨?_, ?_, ?_⟩
  · exact List.forall_mem_append.2 ⟨hp.known, fun g hg => (hone g hg).1⟩
  · rw [List.map_append]
    exact hp.once.append (List.nodup_singleton o) (List.disjoint_singleton.2 hnew)
  · exact List.forall_mem_append.2 ⟨hp.fits, fun g hg => (hone g hg).2⟩

/-- Of options given properly, each can be given behind those before it. -/
theorem Proper.give_eq_ok {tail : List Given} (hp : Proper l (given ++ (o, value) :: tail)) :
    Scan.give given o value = .ok (given ++ [(o, value)]) := by
  refine give_eq_ok_iff.2 ⟨fun hmem => ?_, hp.fits (o, value) (by simp), rfl⟩
  have honce := hp.once
  rw [List.map_append] at honce
  exact (List.nodup_append.1 honce).2.2 o hmem o (by simp) rfl

/-! ### One spelling -/

/-- A state that settles waits for no value. -/
theorem awaitsValue_of_settle (h : s.settle = .ok given) : s.awaitsValue = false := by
  obtain ⟨_, _ | ⟨o, _ | value⟩⟩ := s
  · rfl
  · simp [Scan.settle] at h
  · rfl

/-- A long word is no command. -/
theorem isCommand_of_long {word : String} {name : List Char} {attached : Option (List Char)}
    (h : Word.of word = .long name attached) : l.isCommand word = false := by
  by_contra hcommand
  have hplain := of_eq_plain_iff.2 (plain_of_isCommand (Bool.not_eq_false _ ▸ hcommand))
  rw [h] at hplain
  cases hplain

/-- No option is named for help. -/
theorem Opt.name_ne_help (o : Opt) : o.name.toList ≠ "help".toList := by
  cases o <;> decide

/-- What a word does that names an option of a level depends on what the option takes. -/
theorem long_of_mem (ho : o ∈ l.options) (attached : Option (List Char)) :
    s.long l o.name.toList attached =
      match o.takes, attached with
      | .nothing, none => s.add o ""
      | .nothing, some _ => .error .surplusValue
      | _, none => s.await o
      | _, some value => s.add o (String.ofList value) := by
  have hfound : l.option? o.name.toList = some o := option?_eq_some_iff.2 ⟨ho, rfl⟩
  rw [Scan.long, if_neg o.name_ne_help]
  generalize l.option? o.name.toList = found at hfound ⊢
  subst hfound
  rfl

theorem add_eq_ok_iff : s.add o value = .ok s' ↔ ∃ given given', s.settle = .ok given ∧
    Scan.give given o value = .ok given' ∧ ⟨given', none⟩ = s' := by
  rw [Scan.add]
  cases s.settle with
  | error _ => simp
  | ok given => cases h : Scan.give given o value <;> simp [h]

theorem await_eq_ok_iff :
    s.await o = .ok s' ↔ ∃ given, s.settle = .ok given ∧ ⟨given, some (o, none)⟩ = s' := by
  rw [Scan.await]
  cases s.settle <;> simp

theorem scan_long {word : String} {name : List Char} {attached : Option (List Char)}
    (h : Word.of word = .long name attached) (hlong : s.long l name attached = .ok s') :
    scan l s (word :: words) = scan l s' words := by
  simp [scan, isCommand_of_long h, h, hlong]

/-- A plain word is the value of the option that waits for one. -/
theorem scan_value (hplain : Plain value) :
    scan l ⟨given, some (o, none)⟩ (value :: words) =
      scan l ⟨given, some (o, some value)⟩ words := by
  simp [scan, Scan.awaitsValue, of_eq_plain_iff.2 hplain]

/-- **One spelling adds its option** to what is settled, if the option can be given. -/
theorem scan_spells (hs : s.settle = .ok given) (ho : o ∈ l.options)
    (h : Spells (o, value) words) (hgive : Scan.give given o value = .ok given')
    (rest : List String) :
    ∃ s', s'.settle = .ok given' ∧ scan l s (words ++ rest) = scan l s' rest := by
  cases h with
  | flag htakes =>
    refine ⟨⟨given', none⟩, rfl, scan_long (of_word o) ?_⟩
    rw [long_of_mem ho, htakes]
    exact add_eq_ok_iff.2 ⟨given, given', hs, hgive, rfl⟩
  | attached _ htakes =>
    refine ⟨⟨given', none⟩, rfl, scan_long (of_attached o value) ?_⟩
    rw [long_of_mem ho]
    cases h : o.takes with
    | nothing => exact (htakes h).elim
    | text | number => simpa using add_eq_ok_iff.2 ⟨given, given', hs, hgive, rfl⟩
  | apart htakes plain =>
    refine ⟨⟨given, some (o, some value)⟩, hgive, ?_⟩
    have hawait : s.long l o.name.toList none = .ok ⟨given, some (o, none)⟩ := by
      rw [long_of_mem ho]
      cases h : o.takes with
      | nothing => exact (htakes h).elim
      | text | number => exact await_eq_ok_iff.2 ⟨given, hs, rfl⟩
    exact (scan_long (of_word o) hawait).trans (scan_value plain)

/-- Options spelled one behind the other are all added. -/
theorem scan_spelled {new : List Given} (hs : s.settle = .ok given) (h : Spelled new words)
    (hp : Proper l (given ++ new)) (rest : List String) :
    ∃ s', s'.settle = .ok (given ++ new) ∧ scan l s (words ++ rest) = scan l s' rest := by
  induction h generalizing s given with
  | nil => exact ⟨s, by simpa using hs, rfl⟩
  | @cons g new spelling words head _ ih =>
    have ho : g.1 ∈ l.options := hp.known g (by simp)
    obtain ⟨s₁, hs₁, hscan₁⟩ := scan_spells hs ho head hp.give_eq_ok (words ++ rest)
    rw [List.append_cons] at hp ⊢
    obtain ⟨s', hs', hscan⟩ := ih hs₁ hp
    exact ⟨s', hs', by rw [List.append_assoc, hscan₁, hscan]⟩

/-- Behind the options, the scan of a level ends as its words do. -/
theorem scan_ends (h : Ends l words e) (hs : s.settle = .ok given) :
    scan l s words = .ok (s, e) := by
  cases h with
  | line => rfl
  | level h =>
    have hlookup := lookup_commands.2 h
    simp [scan, awaitsValue_of_settle hs, Level.isCommand, hlookup]

/-! ### What the words can begin with -/

/-- The word that ends the options is the only one of its kind. -/
theorem of_eq_ending {word : String} (h : Word.of word = .ending) : word = "--" := by
  unfold Word.of at h
  split at h <;> simp only [reduceCtorEq] at h
  next hword => exact String.ext hword

/-- A long word that is understood names an option of the level. -/
theorem mem_of_long_eq_ok {name : List Char} {attached : Option (List Char)}
    (h : s.long l name attached = .ok s') : ∃ o ∈ l.options, o.name.toList = name := by
  unfold Scan.long at h
  split at h
  · cases h
  · split at h
    · cases h
    · next o ho => exact ⟨o, option?_eq_some_iff.1 ho⟩

/-- A long word that is understood spells an option of the level with a value, or leaves one waiting
for its value. -/
theorem long_eq_ok {word : String} {name : List Char} {attached : Option (List Char)}
    (hword : Word.of word = .long name attached) (h : s.long l name attached = .ok s') :
    ∃ o given, o ∈ l.options ∧ s.settle = .ok given ∧
      ((∃ value, Spells (o, value) [word] ∧ s'.awaitsValue = false ∧
          s'.settle = Scan.give given o value) ∨
        word = o.word ∧ o.takes ≠ .nothing ∧ s' = ⟨given, some (o, none)⟩) := by
  obtain ⟨o, ho, rfl⟩ := mem_of_long_eq_ok h
  have hspelt := eq_word_of_long hword
  rw [long_of_mem ho] at h
  split at h
  case h_1 htakes =>
    obtain ⟨given, given', hs, hgive, rfl⟩ := add_eq_ok_iff.1 h
    exact ⟨o, given, ho, hs, .inl ⟨"", hspelt ▸ .flag htakes, rfl, hgive.symm⟩⟩
  case h_2 => cases h
  case h_3 htakes =>
    obtain ⟨given, hs, rfl⟩ := await_eq_ok_iff.1 h
    exact ⟨o, given, ho, hs, .inr ⟨hspelt, htakes, rfl⟩⟩
  case h_4 value htakes =>
    obtain ⟨given, given', hs, hgive, rfl⟩ := add_eq_ok_iff.1 h
    exact ⟨o, given, ho, hs, .inl ⟨_, hspelt ▸ .attached _ htakes, rfl, hgive.symm⟩⟩

/-- **What one word can do** in a scan that comes to its end: it ends the level's options, it names
one of them, or it is the value that is waited for. -/
theorem scan_word {word : String} (h : scan l s (word :: words) = .ok (s', e))
    (hword : word ≠ "--") :
    s.awaitsValue = false ∧ s' = s ∧ Ends l (word :: words) e ∨
    (∃ name attached s₁, Word.of word = .long name attached ∧ s.long l name attached = .ok s₁ ∧
      scan l s₁ words = .ok (s', e)) ∨
    ∃ given o, s = ⟨given, some (o, none)⟩ ∧ Plain word ∧
      scan l ⟨given, some (o, some word)⟩ words = .ok (s', e) := by
  unfold scan at h
  split at h
  next hcommand =>
    rw [Bool.and_eq_true, Bool.not_eq_true'] at hcommand
    split at h
    next command hlookup =>
      cases h
      exact .inl ⟨hcommand.1, rfl, .level (lookup_commands.1 hlookup)⟩
    next => cases h
  next =>
    split at h
    next hkind => exact (hword (of_eq_ending hkind)).elim
    next name attached hkind =>
      split at h
      next => cases h
      next s₁ hlong => exact .inr (.inl ⟨name, attached, s₁, hkind, hlong, h⟩)
    next => cases h
    next hkind =>
      split at h
      next o hpending =>
        exact .inr (.inr ⟨s.given, o, by rw [← hpending], of_eq_plain_iff.1 hkind, h⟩)
      next => cases h

/-- What waits for a value gets it from a plain word, if the scan is to settle. -/
theorem scan_awaiting (h : scan l ⟨given, some (o, none)⟩ words = .ok (s', e))
    (hsettle : s'.settle = .ok all) (hwords : "--" ∉ words) :
    ∃ value rest, words = value :: rest ∧ Plain value ∧
      scan l ⟨given, some (o, some value)⟩ rest = .ok (s', e) := by
  cases words with
  | nil =>
    cases h
    cases hsettle
  | cons word words =>
    obtain ⟨hawaits, -⟩ | ⟨name, attached, s₁, hkind, hlong, -⟩ | ⟨given, o, heq, hplain, hrest⟩ :=
      scan_word h (List.ne_of_not_mem_cons hwords).symm
    · cases hawaits
    · -- A long word settles what waits, and that fails without a value.
      obtain ⟨_, _, _, hs, _⟩ := long_eq_ok hkind hlong
      cases hs
    · cases heq
      exact ⟨word, words, rfl, hplain, hrest⟩

/-- **What the words can begin with**, if their scan is to settle: nothing that belongs to the
level's options, or the spelling of one of them. -/
theorem scan_begins (h : scan l s words = .ok (s', e)) (hsettle : s'.settle = .ok all)
    (hwords : "--" ∉ words) (hs : s.awaitsValue = false) :
    s' = s ∧ Ends l words e ∨
    ∃ o value spelling rest given s₁, words = spelling ++ rest ∧ spelling ≠ [] ∧ o ∈ l.options ∧
      Spells (o, value) spelling ∧ s.settle = .ok given ∧ s₁.awaitsValue = false ∧
      s₁.settle = Scan.give given o value ∧ scan l s₁ rest = .ok (s', e) := by
  cases words with
  | nil =>
    cases h
    exact .inl ⟨rfl, .line⟩
  | cons word words =>
    obtain ⟨-, hend⟩ | ⟨name, attached, s₁, hkind, hlong, hrest⟩ | ⟨given, o, rfl, -⟩ :=
      scan_word h (List.ne_of_not_mem_cons hwords).symm
    · exact .inl hend
    · obtain ⟨o, given, ho, hs, ⟨value, hspells, hawaits, hgive⟩ | ⟨rfl, htakes, rfl⟩⟩ :=
        long_eq_ok hkind hlong
      · exact .inr ⟨o, value, [word], words, given, s₁, rfl, List.cons_ne_nil _ _, ho, hspells, hs,
          hawaits, hgive, hrest⟩
      · obtain ⟨value, rest, rfl, hplain, hrest⟩ :=
          scan_awaiting hrest hsettle (List.not_mem_of_not_mem_cons hwords)
        exact .inr ⟨o, value, [o.word, value], rest, given, _, rfl, List.cons_ne_nil _ _, ho,
          .apart htakes hplain, hs, rfl, rfl, hrest⟩
    · cases hs

/-! ### The words of a level -/

/-- Words whose scan settles spell what it adds, and end as it does. -/
theorem spelled_of_scan (h : scan l s words = .ok (s', e)) (hsettle : s'.settle = .ok all)
    (hwords : "--" ∉ words) (hs : s.awaitsValue = false)
    (hproper : ∀ given, s.settle = .ok given → Proper l given) :
    ∃ given new before rest, s.settle = .ok given ∧ all = given ++ new ∧ words = before ++ rest ∧
      Spelled new before ∧ Ends l rest e ∧ Proper l all := by
  -- By induction on the number of words; a spelling takes one or two of them.
  induction hlength : words.length using Nat.strong_induction_on generalizing s words with
  | _ n ih =>
  obtain ⟨rfl, hend⟩ | ⟨o, value, spelling, rest, given, s₁, rfl, hne, ho, hspells, hgiven, hs₁,
    hgive, hrest⟩ := scan_begins h hsettle hwords hs
  · exact ⟨all, [], [], words, hsettle, by simp, rfl, .nil, hend, hproper all hsettle⟩
  · have hshorter : rest.length < n := by
      have := List.length_pos_of_ne_nil hne
      rw [← hlength, List.length_append]
      omega
    have hwords' : "--" ∉ rest := fun hmem => hwords (List.mem_append_right _ hmem)
    have hproper₁ : ∀ given₁, s₁.settle = .ok given₁ → Proper l given₁ := fun given₁ hgiven₁ =>
      (hproper given hgiven).give ho (hgive.symm.trans hgiven₁)
    obtain ⟨given₁, new, before, rest, hgiven₁, rfl, rfl, hspelled, hend, hall⟩ :=
      ih rest.length hshorter hrest hwords' hs₁ hproper₁ rfl
    obtain ⟨-, -, rfl⟩ := give_eq_ok_iff.1 (hgive.symm.trans hgiven₁)
    exact ⟨given, (o, value) :: new, spelling ++ before, rest, hgiven, by simp, by simp,
      .cons hspells hspelled, hend, hall⟩

/-- Words that give a level its options are scanned to these options. -/
theorem scan_written (h : Written l given words) (hend : Ends l rest e) :
    ∃ s, scan l .fresh (words ++ rest) = .ok (s, e) ∧ s.settle = .ok given := by
  have hfresh : Scan.fresh.settle = .ok [] := rfl
  obtain ⟨s, hs, hscan⟩ := scan_spelled hfresh h.spelled h.proper rest
  exact ⟨s, hscan.trans (scan_ends hend hs), hs⟩

/-- **The words of a level are scanned exactly as they are written.** -/
theorem scan_fresh_iff (hwords : "--" ∉ words) :
    (∃ s, scan l .fresh words = .ok (s, e) ∧ s.settle = .ok given) ↔
      ∃ before rest, words = before ++ rest ∧ Written l given before ∧ Ends l rest e := by
  constructor
  · rintro ⟨s, hscan, hsettle⟩
    have hproper : ∀ given, Scan.fresh.settle = .ok given → Proper l given := by
      rintro given hgiven
      cases hgiven
      exact ⟨nofun, .nil, nofun⟩
    obtain ⟨_, new, before, rest, hnone, rfl, rfl, hspelled, hend, hall⟩ :=
      spelled_of_scan hscan hsettle hwords rfl hproper
    cases hnone
    exact ⟨before, rest, rfl, ⟨hspelled, hall⟩, hend⟩
  · rintro ⟨before, rest, rfl, hwritten, hend⟩
    exact scan_written hwritten hend

end ClusterWatch.CommandLine
