import Repl.Proofs.Text.Lines
import Repl.Terminal.Stream

/-!
Streams in good order. An input stream gives the lines of what is left of it, one by one, and then
fails for good; an output stream with unlimited room takes everything.
-/

namespace Repl

namespace InputStream

variable {i : InputStream} {line : Bytes} {others : List Bytes}

/-! ## Reading a text -/

theorem readLine_of_good (hgood : i.good = true) (hne : i.rest ≠ []) :
    i.readLine =
      match i.rest.dropWhile (· ≠ Ascii.newline) with
      | [] => (.ok (i.rest.takeWhile (· ≠ Ascii.newline)), { i with rest := [], ended := true })
      | _ :: rest => (.ok (i.rest.takeWhile (· ≠ Ascii.newline)), { i with rest }) := by
  rw [readLine, hgood, Bool.not_true, if_neg Bool.false_ne_true]
  cases hrest : i.rest with
  | nil => exact absurd hrest hne
  | cons b rest => rfl

/-- The last line of a text may lack a newline. It is read all the same, and the end is met. -/
theorem readLine_ofBytes_of_not_mem (h : Ascii.newline ∉ line) (hne : line ≠ []) :
    (ofBytes line).readLine = (.ok line, ⟨[], true, false, false⟩) := by
  rw [readLine_of_good rfl hne]
  dsimp only [ofBytes]
  rw [Text.takeWhile_ne_of_not_mem h, Text.dropWhile_ne_of_not_mem h]

theorem readLine_ofBytes_append (h : Ascii.newline ∉ line) (rest : Bytes) :
    (ofBytes (line ++ Ascii.newline :: rest)).readLine = (.ok line, .ofBytes rest) := by
  have hne : line ++ Ascii.newline :: rest ≠ [] :=
    List.append_ne_nil_of_right_ne_nil line (List.cons_ne_nil _ _)
  rw [readLine_of_good rfl hne]
  dsimp only [ofBytes]
  rw [Text.takeWhile_ne_append h, Text.dropWhile_ne_append h]

/-! ## Reading on -/

/-- Reads give the lines, one after another, and then meet the end for good. -/
structure Gives (lines : List Bytes) (i : InputStream) : Prop where
  lines : Text.HasLines i.rest lines
  damaged : i.damaged = false
  ended : i.ended = true → i.rest = []
  failed : i.failed = true → i.ended = true

theorem gives_ofBytes (s : Bytes) : Gives (Text.lines s) (.ofBytes s) where
  lines := Text.hasLines_lines s
  damaged := rfl
  ended := nofun
  failed := nofun

theorem Gives.eq_ofBytes (h : Gives others i) (hne : i.rest ≠ []) : i = .ofBytes i.rest := by
  obtain ⟨rest, ended, failed, damaged⟩ := i
  have hended : ended = false := Bool.eq_false_iff.2 fun hended => hne (h.ended hended)
  have hfailed : failed = false := by
    apply Bool.eq_false_iff.2
    intro hfailed
    cases hended.symm.trans (h.failed hfailed)
  obtain rfl : damaged = false := h.damaged
  rw [hended, hfailed]
  rfl

/-- A line is given, and the next read gives the next one. -/
theorem Gives.readLine_cons (h : Gives (line :: others) i) :
    i.readLine.1 = .ok line ∧ Gives others i.readLine.2 := by
  have hne : i.rest ≠ [] := by
    intro hempty
    have hlines := h.lines.eq_lines
    rw [hempty] at hlines
    cases hlines
  rw [h.eq_ofBytes hne]
  have hlines := h.lines
  generalize i.rest = text at hlines
  cases hlines with
  | unterminated hline hne =>
    rw [readLine_ofBytes_of_not_mem hline hne]
    exact ⟨rfl, .empty, rfl, fun _ => rfl, nofun⟩
  | terminated hline hrest =>
    rw [readLine_ofBytes_append hline]
    exact ⟨rfl, hrest, rfl, nofun, nofun⟩

theorem Gives.readLine_nil (h : Gives [] i) :
    i.readLine.1 = .error (ascii "end of input stream") ∧ Gives [] i.readLine.2 := by
  obtain ⟨rest, ended, failed, damaged⟩ := i
  obtain ⟨hlines, hdamaged, -, hfailed⟩ := h
  obtain rfl : damaged = false := hdamaged
  obtain rfl : rest = [] := by
    generalize hnone : ([] : List Bytes) = ls at hlines
    cases hlines with
    | empty => rfl
    | unterminated _ _ | terminated _ _ => cases hnone
  -- The first such read notes the end, and those after it fail on that note.
  cases ended with
  | true => exact ⟨rfl, .empty, rfl, fun _ => rfl, fun _ => rfl⟩
  | false =>
    obtain rfl : failed = false := Bool.eq_false_iff.2 fun h => nomatch hfailed h
    exact ⟨rfl, .empty, rfl, fun _ => rfl, fun _ => rfl⟩

/-- A read takes nothing unless it gives a line, and then something. -/
theorem length_rest_readLine (i : InputStream) :
    i.readLine.2.rest.length ≤ i.rest.length ∧
      ∀ line, i.readLine.1 = .ok line → i.readLine.2.rest.length < i.rest.length := by
  cases hgood : i.good with
  | false =>
    rw [readLine, hgood, Bool.not_false, if_pos rfl]
    exact ⟨Nat.le_refl _, nofun⟩
  | true =>
    by_cases hne : i.rest = []
    · rw [readLine, hgood, Bool.not_true, if_neg Bool.false_ne_true, hne]
      exact ⟨Nat.le_refl _, nofun⟩
    · rw [readLine_of_good hgood hne]
      have hpos : 0 < i.rest.length := List.length_pos_iff.2 hne
      cases hdrop : i.rest.dropWhile (· ≠ Ascii.newline) with
      | nil => exact ⟨Nat.zero_le _, fun _ _ => hpos⟩
      | cons b rest =>
        have hlength := List.length_dropWhile_le (· ≠ Ascii.newline) i.rest
        rw [hdrop, List.length_cons] at hlength
        have hshorter : rest.length < i.rest.length := hlength
        exact ⟨hshorter.le, fun _ _ => hshorter⟩

end InputStream

namespace Sink

/-- The stream takes everything that is written to it. -/
structure Unlimited (sink : Sink) : Prop where
  room : sink.room = none
  broken : sink.broken = false

theorem unlimited_unlimited : Unlimited unlimited :=
  ⟨rfl, rfl⟩

variable {sink : Sink}

theorem Unlimited.write (h : sink.Unlimited) (s : Bytes) : (sink.write s).Unlimited := by
  rw [Sink.write, h.broken, if_neg Bool.false_ne_true, h.room]
  exact ⟨rfl, rfl⟩

theorem Unlimited.written_write (h : sink.Unlimited) (s : Bytes) :
    (sink.write s).written = sink.written ++ s := by
  rw [Sink.write, h.broken, if_neg Bool.false_ne_true, h.room]

theorem Unlimited.append (h : sink.Unlimited) (s : Bytes) : (sink.append s).Unlimited := by
  rw [Sink.append, h.room]
  exact ⟨rfl, h.broken⟩

theorem Unlimited.written_append (h : sink.Unlimited) (s : Bytes) :
    (sink.append s).written = sink.written ++ s := by
  rw [Sink.append, h.room]

theorem Unlimited.print (h : sink.Unlimited) (s : Bytes) :
    (sink.print s).1 = .ok () ∧ (sink.print s).2.Unlimited := by
  have hafter := h.write s
  refine ⟨?_, hafter⟩
  show (if (sink.write s).broken then _ else _) = _
  rw [hafter.broken, if_neg Bool.false_ne_true]

end Sink

end Repl
