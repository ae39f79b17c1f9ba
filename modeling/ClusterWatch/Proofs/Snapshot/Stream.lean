import ClusterWatch.Proofs.Json.Layout
import ClusterWatch.Session

/-!
# Stream — raw snapshots printed one after another can be told apart

`documents output` cuts an output behind each line that is a closing brace.  The raw form of a
snapshot has one such line, its last (`Snapshot.lines_raw`): all others are indented, but for the
first, which opens the brace.  Hence a printed snapshot is the first document of an output that
begins with it, whatever follows (`documents_raw`), and an output of raw snapshots is cut into just
these (`documents_flatMap`).

What a host is called cannot change this: its line feeds are written as escapes.
-/

namespace ClusterWatch

/-- The line that ends a document. -/
def Snapshot.lastLine : List Char := [Json.Container.object.closing]

open Snapshot (lastLine)

/-! ### Lines of one snapshot -/

/-- **The raw form has one line that is a closing brace, its last.** -/
theorem Snapshot.lines_raw (s : Snapshot) :
    ∃ front, s.raw.splitOn '\n' = front ++ [lastLine] ∧ lastLine ∉ front := by
  rw [raw, Json.Document.pretty, document, Json.Document.written_object]
  refine Json.Container.object.lines_written (by simp) (List.forall_mem_map.2 fun m _ => ?_)
  exact Json.indented_memberWritten (m.2.indented_written Nat.one_pos)

namespace Session

/-! ### Cutting an output -/

/-- What an output is cut into behind each line that is a closing brace; the line feed there belongs
to no part. -/
def documents (output : List Char) : List (List Char) :=
  ((output.splitOn '\n').splitBy fun line _ => line != lastLine).map (List.intercalate ['\n'])

/-- A list is cut behind a mark. -/
theorem splitBy_mark {α : Type} [BEq α] [LawfulBEq α] {mark : α} {front : List α} (h : mark ∉ front)
    (rest : List α) :
    (front ++ mark :: rest).splitBy (fun a _ => a != mark) =
      (front ++ [mark]) :: rest.splitBy (fun a _ => a != mark) := by
  have hchain : List.IsChain (fun a _ => (a != mark) = true) (front ++ [mark]) := by
    induction front with
    | nil => exact .singleton mark
    | cons a front ih =>
        obtain ⟨ha, hfront⟩ := not_or.1 (mt List.mem_cons.2 h)
        exact List.isChain_cons.2 ⟨fun _ _ => by simpa using Ne.symm ha, ih hfront⟩
  have hlast : ∀ a ∈ (front ++ [mark]).getLast?, ∀ b ∈ rest.head?, (a != mark) = false := by
    intro a ha b _
    rw [List.getLast?_concat] at ha
    simpa using (Option.some.inj ha).symm
  rw [List.append_cons, List.splitBy_append hlast, List.splitBy_of_isChain (by simp) hchain]
  rfl

/-- **A printed snapshot is the first document of an output that begins with it.** -/
theorem documents_raw (s : Snapshot) (output : List Char) :
    documents (s.raw ++ '\n' :: output) = s.raw :: documents output := by
  obtain ⟨front, hfront, hnot⟩ := s.lines_raw
  have hlines : (s.raw ++ '\n' :: output).splitOn '\n' =
      front ++ lastLine :: output.splitOn '\n' := by
    rw [Text.splitOn_append_newline, hfront, ← List.append_cons]
  rw [documents, hlines, splitBy_mark hnot, List.map_cons, ← hfront, List.intercalate_splitOn]
  rfl

/-- Behind the last line feed of an output nothing is left. -/
theorem documents_nil : documents [] = [[]] := rfl

theorem documents_flatMap (ss : List Snapshot) :
    documents (ss.flatMap fun s => s.raw ++ ['\n']) = ss.map Snapshot.raw ++ [[]] := by
  induction ss with
  | nil => exact documents_nil
  | cons s ss ih =>
      rw [List.flatMap_cons, List.append_assoc, List.singleton_append, documents_raw, ih]
      rfl

/-! ### What is printed -/

theorem toList_shown_raw (s : Snapshot) (now : Instant) :
    (shown true s now).toList = s.raw ++ ['\n'] := by
  rw [shown, if_pos rfl, String.toList_ofList]

/-- A watch prints the loaded snapshots among those that are yielded. -/
theorem toList_printed_raw (history : List Stepped) :
    (printed true history).toList =
      ((history.flatMap (·.yielded)).filter Snapshot.isLoaded).flatMap
        fun s => s.raw ++ ['\n'] := by
  have hframe : ∀ s now, (frame true s now).toList =
      if s.isLoaded then s.raw ++ ['\n'] else [] := by
    intro s now
    rw [frame, if_pos rfl]
    split
    · exact toList_shown_raw s now
    · rfl
  have hyielded : ∀ (yielded : List Snapshot) now,
      (yielded.map fun s => frame true s now).flatMap String.toList =
        (yielded.filter Snapshot.isLoaded).flatMap fun s => s.raw ++ ['\n'] := by
    intro yielded now
    induction yielded with
    | nil => rfl
    | cons s yielded ih =>
        rw [List.map_cons, List.flatMap_cons, ih, hframe, List.filter_cons]
        split
        · rfl
        · rfl
  rw [printed, String.toList_join, List.flatMap_assoc, List.filter_flatMap, List.flatMap_assoc]
  simp only [hyielded]

/-- **The raw output can always be cut back into its documents.**  Of the lines of a raw snapshot
exactly one is a closing brace, and it is the last, whatever the hosts are called.  So an output of
raw snapshots, printed one after another, is cut behind these lines into just the snapshots that
were printed, in their order, and nothing is left behind the last line feed; and what a watch prints
is cut into the loaded snapshots that it was given. -/
theorem raw_documents :
    (∀ s : Snapshot, (s.raw.splitOn '\n').count ['}'] = 1 ∧
      (s.raw.splitOn '\n').getLast? = some ['}']) ∧
    (∀ shows : List (Snapshot × Instant),
      documents (String.join (shows.map fun p => shown true p.1 p.2)).toList =
        shows.map (·.1.raw) ++ [[]]) ∧
    ∀ history : List Stepped, documents (printed true history).toList =
      ((history.flatMap (·.yielded)).filter Snapshot.isLoaded).map Snapshot.raw ++ [[]] := by
  refine ⟨fun s => ?_, fun shows => ?_, fun history => ?_⟩
  · obtain ⟨front, hfront, hnot⟩ := s.lines_raw
    have hcount : front.count ['}'] = 0 := List.count_eq_zero.2 hnot
    rw [hfront, List.getLast?_concat, List.count_append, hcount]
    exact ⟨rfl, rfl⟩
  · have hshown := documents_flatMap (shows.map (·.1))
    rw [List.map_map, List.flatMap_map] at hshown
    rw [String.toList_join, List.flatMap_map]
    simp only [toList_shown_raw]
    exact hshown
  · rw [toList_printed_raw]
    exact documents_flatMap _

end Session

end ClusterWatch
