import ClusterWatch.Proofs.Json.Encode
import ClusterWatch.Proofs.Source.Unwrap
import ClusterWatch.Snapshot.Raw

/-!
# Round trip — the raw form of a snapshot is the body of a status

A snapshot with a master is written as the fields of its status with one more member behind them,
so its raw form writes that status (`written_raw`), and a body of it is decoded to what is shown.
Without a master the raw form is refused, at the null in the master's place (`read_masterless`).

The raw form is an object, so it ends in a brace and is no call of anything (`unwrap_raw`): it does
not matter which form of body is expected.
-/

namespace ClusterWatch
open Json Text

/-! ### Where a fault lies -/

namespace Json

namespace Position

theorem advance_zero (p : Position) (s : List Char) : p.advance s 0 = p := by
  cases s with
  | nil => rfl
  | cons c s => rw [advance, if_pos c.utf8Size_pos, Nat.add_zero]

/-- What stands behind a place does not matter to it. -/
theorem advance_append (p : Position) (s r : List Char) :
    p.advance (s ++ r) (byteLength s) = p.advance s (byteLength s) := by
  induction s generalizing p with
  | nil => rw [List.nil_append, byteLength, advance_zero, advance_zero]
  | cons c s ih =>
      have hc : ¬ c.utf8Size + byteLength s < c.utf8Size := by omega
      rw [List.cons_append, byteLength, advance, advance, if_neg hc, if_neg hc,
        Nat.add_sub_cancel_left, ih, ih]

end Position

/-- A fault behind the front of a text lies where it would if the text ended there. -/
theorem Fault.behind_inText (cause : Cause) (s r : List Char) :
    (Fault.behind cause r).inText (s ++ r) = ⟨cause, .of s (byteLength s)⟩ := by
  rw [Fault.inText, Fault.behind, byteLength_append, Nat.add_sub_cancel, Position.of,
    Position.advance_append]
  rfl

end Json

/-! ### The first member of an object -/

/-- A member with a known key is read from what is written of it. -/
theorem Json.readMembers_written {δ α : Type} {member : String → δ → Member δ}
    (complete : δ → Except String α) {d : δ} {reader : Reader δ} (m : String × Document)
    (hm : member m.1 d = .known reader) (depth : Nat) (r : List Char) :
    readMembers member complete true d (newLine depth ++ (memberWritten depth m ++ r)) =
      match reader.run ([' '] ++ (m.2.written depth ++ r)) with
      | .error e => .error e
      | .ok (d', r) => readMembers member complete false d' r := by
  have hkey : ∀ r, nextKey true (newLine depth ++ '"' :: r) = .ok (.element r) := fun r =>
    nextKey_element_iff.2 ⟨newLine depth, isBlanks_newLine depth, rfl⟩
  have hname : ∀ r, readString (m.1.toList.flatMap encodeChar ++ '"' :: r) = .ok (m.1.toList, r) :=
    fun r => readString_eq_ok_iff.2 ⟨_, rfl, spells_encode m.1.toList⟩
  have hcolon : ∀ r, readColon (':' :: r) = .ok r := fun r =>
    readColon_eq_ok_iff.2 ⟨[], .nil, rfl⟩
  have htext : memberWritten depth m ++ r = '"' :: (m.1.toList.flatMap encodeChar ++
      '"' :: (':' :: ([' '] ++ (m.2.written depth ++ r)))) := by
    simp [memberWritten_eq]
  rw [htext]
  exact readMembers_value (hkey _) (hname _) (by rwa [String.ofList_toList]) (hcolon _)

/-! ### The document of a snapshot -/

/-- The fields of a status. -/
def Status.fields : Fields := .cons "master" Master.shape (.cons "agents" (.list Agent.shape) .nil)

theorem Status.proper_fields : Status.fields.Proper := by
  simp [Status.fields, Master.shape, Agent.shape, Resource.shape, Fields.Proper, Shape.Proper,
    Fields.names]

/-- The time of an update, if there is one, as a document. -/
def Instant.document? (t : Option Instant) : Document :=
  (t.map fun t => .text (String.ofList t.text)).getD .null

namespace Snapshot

/-- The document of a snapshot with a master: the fields of its status, and the time. -/
theorem document_some (m : Master) (agents : List Agent) (t : Option Instant) :
    (Snapshot.mk (some m) agents t).document =
      .object (Status.fields.documents (Status.mk m agents).toValue ++
        [("updated_at", Instant.document? t)]) := by
  have hagents : agents.map Agent.document =
      (agents.map Agent.toValue).map Agent.shape.document := by
    rw [List.map_map]
    rfl
  rw [document, hagents]
  rfl

/-- **The raw form of a snapshot with a master writes its status.** -/
theorem written_raw (m : Master) (agents : List Agent) (t : Option Instant) :
    (Status.mk m agents).Written (Snapshot.mk (some m) agents t).raw := by
  have hupdated : ∀ p ∈ [memberText 1 ("updated_at", Instant.document? t)],
      p.1 ∉ Status.fields.names ∧ IsValue p.2 := by
    intro p hp
    rw [List.mem_singleton.1 hp]
    exact ⟨by simp [memberText, Status.fields, Fields.names], Document.isValue_written _ 1⟩
  have hmembers := Status.fields.members_documents Status.proper_fields
    (Status.mk m agents).toValue 1 _ hupdated
  rw [← List.map_singleton, ← List.map_append] at hmembers
  rw [raw, Document.pretty, document_some]
  exact Shape.writes_object hmembers

/-- The text of a snapshot without a master, up to the null in the master's place. -/
def masterless : List Char := '{' :: (newLine 1 ++ memberWritten 1 ("master", .null))

theorem exists_raw_none (agents : List Agent) (t : Option Instant) :
    ∃ rest, (Snapshot.mk none agents t).raw = masterless ++ rest := by
  rw [raw, Document.pretty, document, Document.written_object, List.map_cons, Container.written,
    if_neg (by simp), layOut]
  exact ⟨_, by simp only [masterless, Container.opening, List.append_assoc, List.cons_append]; rfl⟩

/-- **The raw form of a snapshot without a master is refused** at the null in the master's place. -/
theorem read_masterless (rest : List Char) :
    Status.read (masterless ++ rest) =
      .error (.behind (.wrongKind .null "struct MasterInfo") rest) := by
  have hmember : Status.fields.member "master" Status.fields.blank =
      .known (Master.shape.reader.map fun m => (some m, none, ())) := member_known
  have hvalue : Master.shape.reader.run ([' '] ++ (Document.null.written 1 ++ rest)) =
      .error (.behind (.wrongKind .null "struct MasterInfo") rest) := by
    rw [Document.written]
    exact Shape.read_null "MasterInfo" _ (b := [' ']) (List.forall_mem_singleton.2 rfl) rest
  have hobject := readMembers_written Status.fields.complete ("master", .null) hmember 1 rest
  simp only [Reader.map, hvalue] at hobject
  have hrun : Status.shape.reader.run (masterless ++ rest) =
      .error (.behind (.wrongKind .null "struct MasterInfo") rest) := by
    rw [masterless, List.cons_append, List.append_assoc]
    exact hobject
  rw [Status.read, hrun]

/-! ### The ends of the raw form -/

theorem exists_raw (s : Snapshot) :
    ∃ inside, s.raw = '{' :: (inside ++ [Container.object.closing]) := by
  obtain ⟨inside, -, h⟩ := Container.object.encloses_written 0 _
  refine ⟨inside, ?_⟩
  rw [raw, Document.pretty, document, Document.written_object]
  exact h

theorem getLast?_raw (s : Snapshot) : s.raw.getLast? = some Container.object.closing := by
  obtain ⟨inside, h⟩ := s.exists_raw
  rw [h, ← List.cons_append, List.getLast?_concat]

theorem trim_raw (s : Snapshot) {tail : List Char} (htail : Blanks tail) :
    trim (s.raw ++ tail) = s.raw := by
  have hstart : trimStart (s.raw ++ tail) = s.raw ++ tail := by
    refine trimStart_append (s := s.raw ++ tail) .nil fun c hc => ?_
    obtain ⟨inside, h⟩ := s.exists_raw
    rw [h] at hc
    obtain rfl : '{' = c := Option.some.inj hc
    rfl
  rw [trim, hstart]
  refine trimEnd_append htail fun c hc => ?_
  obtain rfl : Container.object.closing = c := Option.some.inj (s.getLast?_raw.symm.trans hc)
  rfl

/-- **The raw form is no call**, whatever the callback. -/
theorem unwrap_raw (s : Snapshot) (callback : List Char) {tail : List Char} (htail : Blanks tail) :
    unwrap callback (s.raw ++ tail) = none := by
  refine Option.eq_none_iff_forall_not_mem.2 fun inner hinner => ?_
  have hcall := unwrap_eq_some_iff.1 hinner
  rw [trim_raw s htail] at hcall
  exact hcall.getLast?_ne .object s.getLast?_raw

/-- A body of the raw form is read as it stands, whatever form is expected. -/
theorem decodeBody_raw_eq (s : Snapshot) (format : BodyFormat) {tail : List Char}
    (htail : Blanks tail) :
    decodeBody format (s.raw ++ tail) =
      match Status.read s.raw with
      | .ok status => .ok status
      | .error e => .error (e.inText s.raw) := by
  have hjson : decodeBody .json (s.raw ++ tail) = Status.decode (s.raw ++ tail) := rfl
  rw [Status.decode, trim_raw s htail] at hjson
  cases format with
  | json => exact hjson
  | jsonp callback => exact (decodeBody_jsonp_of_none (s.unwrap_raw _ htail)).trans hjson

theorem position_masterless : Position.of masterless (byteLength masterless) = ⟨2, 16⟩ := by
  rw [masterless, memberWritten, Document.written]
  decide +kernel

/-- **The raw form decodes to what is shown.**  A body that is the raw form of a snapshot with a
master, perhaps with blanks behind it, is decoded to that master and those agents, whichever form of
body is expected and whatever the callback is.  Without a master it is refused, at the null that
stands in the master's place. -/
theorem decodeBody_raw (format : BodyFormat) (agents : List Agent) (t : Option Instant)
    {tail : List Char} (htail : Blanks tail) :
    (∀ m, decodeBody format ((Snapshot.mk (some m) agents t).raw ++ tail) = .ok ⟨m, agents⟩) ∧
      decodeBody format ((Snapshot.mk none agents t).raw ++ tail) =
        .error ⟨.wrongKind .null "struct MasterInfo", ⟨2, 16⟩⟩ := by
  refine ⟨fun m => ?_, ?_⟩
  · have hwritten := written_raw m agents t
    rw [← trim_raw _ htail] at hwritten
    have hread := Status.read_trim_eq_ok_iff.2 hwritten
    rw [trim_raw _ htail] at hread
    rw [decodeBody_raw_eq _ format htail, hread]
  · obtain ⟨rest, hraw⟩ := exists_raw_none agents t
    rw [decodeBody_raw_eq _ format htail, hraw, read_masterless]
    simp only [Fault.behind_inText, position_masterless]

/-- A host with a quote, a backslash, a line end, a line separator and a character of two
surrogates, the largest count, and a callback that is the first character of the document. -/
theorem decodeBody_raw_escaped :
    ∃ m agent t, m = Master.mk "\"\\\n\u2028𝄞" 18446744073709551615 0 ∧
      agent = Agent.mk "" ⟨1, 2, 3⟩ ⟨0, 0, 0⟩ 4 ∧ t = some (Instant.ofMillis 1500) ∧
      decodeBody (.jsonp "\x7b") ((Snapshot.mk (some m) [agent] t).raw ++ ['\n']) =
        .ok ⟨m, [agent]⟩ ∧
      decodeBody .json ((Snapshot.mk none [agent] t).raw ++ ['\n']) =
        .error ⟨.wrongKind .null "struct MasterInfo", ⟨2, 16⟩⟩ := by
  have hblank : Blanks ['\n'] := List.forall_mem_singleton.2 rfl
  exact ⟨_, _, _, rfl, rfl, rfl, (decodeBody_raw _ _ _ hblank).1 _, (decodeBody_raw _ _ _ hblank).2⟩

end Snapshot

end ClusterWatch
