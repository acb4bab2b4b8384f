import Mathlib.Data.List.DropRight
import Repl.Proofs.Log.Delivery

/-!
What a log file holds after a history: what someone else wrote there last, and after that the lines
that were logged since, while the file was the log file. Opening a file, closing it and failing to
open another one lose nothing and move nothing.
-/

namespace Repl.Log

namespace Use

/-- What someone else makes the content of the file at a path. -/
def written? (files : Files) (path : Bytes) : Use → Option Bytes
  | rewrite other content =>
    if files.Concerns other path then some content else none
  | setLevel .. | subscribe _ | setConsole _ | openFile _ | closeFile | log .. => none

/-- Whether the use opens the file at a path. -/
def opens (files : Files) (path : Bytes) : Use → Bool
  | openFile other => files.Concerns other path
  | setLevel .. | subscribe _ | setConsole _ | closeFile | log .. | rewrite .. => false

end Use

namespace History

variable (files : Files) (path : Bytes) (history : History)

/-- The content that log lines are added to: what someone else wrote last, or what was there at
first. A file that was only opened is empty, and any other is missing. -/
def base? : Option Bytes :=
  (history.last? (Use.written? files path)).or
    ((files.read? path).or (if history.any (Use.opens files path) then some [] else none))

/-- The line that a use after a history adds to the file at a path. -/
def line? (u : Use) : Option Bytes :=
  if (history.file files).any (files.Same · path) then
    (history.emission? u).map fun (now, e) => Text.withNewline (e.spelled now)
  else none

/-- The lines that were added to the file at a path since someone else wrote it. -/
def linesSince : List Bytes :=
  ((moments [] history).rtakeWhile fun (_, u) => (u.written? files path).isNone).filterMap
    fun (earlier, u) => line? files path earlier u

variable {files path history} {u : Use}

theorem base?_concat_of_some {content : Bytes} (h : u.written? files path = some content) :
    base? files path (history ++ [u]) = some content := by
  rw [base?, last?_concat, h]
  rfl

theorem base?_concat_of_none (h : u.written? files path = none) :
    base? files path (history ++ [u]) =
      (base? files path history).or (if u.opens files path then some [] else none) := by
  rw [base?, last?_concat, h, Option.none_or, base?, List.any_append]
  cases history.last? (Use.written? files path) with
  | some content => rfl
  | none =>
    cases files.read? path with
    | some content => rfl
    | none => cases history.any (Use.opens files path) <;> simp

theorem linesSince_concat_of_some {content : Bytes} (h : u.written? files path = some content) :
    linesSince files path (history ++ [u]) = [] := by
  rw [linesSince, moments_concat, List.rtakeWhile_concat_neg]
  · rfl
  · show ¬(u.written? files path).isNone = true
    rw [h]
    exact Bool.false_ne_true

theorem linesSince_concat_of_none (h : u.written? files path = none) :
    linesSince files path (history ++ [u]) =
      linesSince files path history ++ (line? files path history u).toList := by
  rw [linesSince, moments_concat, List.rtakeWhile_concat_pos, filterMap_concat]
  · rfl
  · show (u.written? files path).isNone = true
    rw [h]
    rfl

end History

namespace Desk

variable {d : Desk} {files : Files} {path : Bytes} {history : History} {u : Use}

/-- The file at the path holds what the history tells. As long as it is missing nothing was logged
to it. -/
structure Holds (d : Desk) (files : Files) (path : Bytes) (history : History) : Prop where
  content : d.channels.files.read? path =
    (history.base? files path).map (· ++ (history.linesSince files path).flatten)
  missing : history.base? files path = none → history.linesSince files path = []

theorem Holds.of_unconcerned (h : d.Holds files path history)
    (hwritten : u.written? files path = none) (hopens : u.opens files path = false)
    (hline : history.line? files path u = none)
    (hread : (d.use u).channels.files.read? path = d.channels.files.read? path) :
    (d.use u).Holds files path (history ++ [u]) := by
  have hbase : History.base? files path (history ++ [u]) = history.base? files path := by
    rw [History.base?_concat_of_none hwritten, hopens, if_neg Bool.false_ne_true, Option.or_none]
  have hlines : History.linesSince files path (history ++ [u]) =
      history.linesSince files path := by
    rw [History.linesSince_concat_of_none hwritten, hline, Option.toList_none, List.append_nil]
  exact ⟨by rw [hread, hbase, hlines, h.content], by rw [hbase, hlines]; exact h.missing⟩

/-- The desk writes among the files, where the path keeps what it takes. -/
structure Among (d : Desk) (files : Files) (path : Bytes) : Prop where
  resolve : d.channels.files.resolve = files.resolve
  keeps : files.Keeps path

theorem Among.read?_write (h : d.Among files path) (other content : Bytes) :
    (d.channels.files.write other content).read? path =
      if files.Concerns other path then some content else d.channels.files.read? path := by
  rw [((Files.keeps_congr h.resolve).2 h.keeps).read?_write]
  simp only [Files.concerns_congr h.resolve]

theorem Among.read?_append (h : d.Among files path) (other content : Bytes) :
    (d.channels.files.append other content).read? path =
      if files.Concerns other path then some ((d.channels.files.read? path).getD [] ++ content)
      else d.channels.files.read? path := by
  rw [((Files.keeps_congr h.resolve).2 h.keeps).read?_append]
  simp only [Files.concerns_congr h.resolve]

theorem Holds.rewrite (h : d.Holds files path history) (hamong : d.Among files path)
    (other content : Bytes) :
    (d.use (.rewrite other content)).Holds files path (history ++ [.rewrite other content]) := by
  have hread : (d.use (.rewrite other content)).channels.files.read? path = _ :=
    hamong.read?_write other content
  by_cases hconcerned : files.Concerns other path
  · have hwritten : (Use.rewrite other content).written? files path = some content :=
      if_pos hconcerned
    rw [if_pos hconcerned] at hread
    constructor
    · rw [hread, History.base?_concat_of_some hwritten,
        History.linesSince_concat_of_some hwritten]
      simp
    · exact fun _ => History.linesSince_concat_of_some hwritten
  · rw [if_neg hconcerned] at hread
    exact h.of_unconcerned (if_neg hconcerned) rfl (by simp [History.line?, History.emission?]) hread

theorem Holds.openFile (h : d.Holds files path history) (hamong : d.Among files path)
    (other : Bytes) : (d.use (.openFile other)).Holds files path (history ++ [.openFile other]) := by
  have hline : history.line? files path (.openFile other) = none := ite_self none
  have hread : (d.use (.openFile other)).channels.files.read? path =
      if files.Concerns other path then some ((d.channels.files.read? path).getD [])
      else d.channels.files.read? path := by
    show (d.logger.openFile other d.channels).2.2.files.read? path = _
    unfold Logger.openFile
    by_cases hwritable : d.channels.files.writable other = true
    · rw [if_pos hwritable]
      dsimp only
      rw [hamong.read?_append, List.append_nil]
    · rw [if_neg hwritable, if_neg]
      · rfl
      · rw [← Files.concerns_congr hamong.resolve]
        exact fun hc => hwritable hc.1
  by_cases hconcerned : files.Concerns other path
  · have hopens : (Use.openFile other).opens files path = true := decide_eq_true hconcerned
    rw [if_pos hconcerned, h.content] at hread
    have hlines : History.linesSince files path (history ++ [.openFile other]) =
        history.linesSince files path := by
      rw [History.linesSince_concat_of_none rfl, hline, Option.toList_none, List.append_nil]
    have hbase : History.base? files path (history ++ [.openFile other]) =
        (history.base? files path).or (some []) := by
      rw [History.base?_concat_of_none rfl, hopens, if_pos rfl]
    refine ⟨?_, fun hnone => ?_⟩
    · rw [hread, hbase, hlines]
      cases hold : history.base? files path with
      | some content => rfl
      | none =>
        -- The file was missing, and nothing was logged to it.
        rw [h.missing hold]
        rfl
    · rw [hbase] at hnone
      cases hold : history.base? files path <;> simp [hold] at hnone
  · rw [if_neg hconcerned] at hread
    exact h.of_unconcerned rfl (decide_eq_false hconcerned) hline hread

theorem Holds.log (h : d.Holds files path history) (hamong : d.Among files path) (hkept : d.Kept)
    (hfollows : d.logger.Follows files history) (now : Timestamp) (e : Entry) :
    (d.use (.log now e)).Holds files path (history ++ [.log now e]) := by
  by_cases hemits : history.Emits e
  · have hemission : history.emission? (.log now e) = some (now, e) := if_pos hemits
    have hchannels := use_log_of_admits ((hfollows.admits_iff e).2 hemits) now
    cases hfile : history.file files with
    | none =>
      have hline : history.line? files path (.log now e) = none := by
        rw [History.line?, hfile]
        rfl
      -- The line goes to the console and to subscribers at most.
      refine h.of_unconcerned rfl rfl hline ?_
      rw [hchannels, hfollows.file, hfile]
      rfl
    | some logFile =>
      have hread : (d.use (.log now e)).channels.files.read? path =
          if files.Concerns logFile path then
            some ((d.channels.files.read? path).getD [] ++ Text.withNewline (e.spelled now))
          else d.channels.files.read? path := by
        rw [hchannels, hfollows.file, hfile]
        exact hamong.read?_append logFile _
      have hopened : files.writable logFile = true := by
        rw [← Files.writable_congr hamong.resolve]
        exact hkept.opened logFile (hfollows.file.trans hfile)
      by_cases hsame : files.Same logFile path
      · -- The file is there, so a base is, and the line comes after all others.
        have hline : history.line? files path (.log now e) =
            some (Text.withNewline (e.spelled now)) := by
          rw [History.line?, hfile, hemission]
          simp [hsame]
        have hbase : History.base? files path (history ++ [.log now e]) =
            history.base? files path := by
          rw [History.base?_concat_of_none rfl]
          exact Option.or_none
        have hlines : History.linesSince files path (history ++ [.log now e]) =
            history.linesSince files path ++ [Text.withNewline (e.spelled now)] := by
          rw [History.linesSince_concat_of_none rfl, hline]
          rfl
        obtain ⟨name, hname⟩ := hamong.keeps.file_of_concerns ⟨hopened, hsame⟩
        rw [← Files.place_congr hamong.resolve] at hname
        have hexists := hkept.exists_logFile logFile name (hfollows.file.trans hfile) hname
        rw [if_pos ⟨hopened, hsame⟩] at hread
        rw [Files.read?_eq_of_same ((Files.same_congr hamong.resolve).2 hsame), h.content,
          Option.isSome_map] at hexists
        obtain ⟨base, hsome⟩ := Option.isSome_iff_exists.1 hexists
        refine ⟨?_, fun hnone => ?_⟩
        · rw [hread, h.content, hbase, hlines, hsome]
          simp
        · rw [hbase, hsome] at hnone
          cases hnone
      · have hline : history.line? files path (.log now e) = none := by
          rw [History.line?, hfile]
          simp [hsame]
        rw [if_neg fun hc => hsame hc.2] at hread
        exact h.of_unconcerned rfl rfl hline hread
  · have hline : history.line? files path (.log now e) = none := by
      simp [History.line?, History.emission?, hemits]
    refine h.of_unconcerned rfl rfl hline ?_
    rw [use_log_of_not_admits (mt (hfollows.admits_iff e).1 hemits)]

theorem Holds.use (h : d.Holds files path history) (hamong : d.Among files path) (hkept : d.Kept)
    (hfollows : d.logger.Follows files history) (u : Use) :
    (d.use u).Holds files path (history ++ [u]) := by
  cases u with
  | setLevel | subscribe | setConsole | closeFile =>
    exact h.of_unconcerned rfl rfl (ite_self none) rfl
  | openFile other => exact h.openFile hamong other
  | log now e => exact h.log hamong hkept hfollows now e
  | rewrite other content => exact h.rewrite hamong other content

theorem holds_after (history : History) (h : files.Keeps path) :
    ((new files).after history).Holds files path history := by
  induction history using List.reverseRecOn with
  | nil =>
    refine ⟨?_, fun _ => rfl⟩
    show files.read? path = ((files.read? path).or none).map (· ++ [])
    simp
  | append_singleton history u ih =>
    have hamong : ((new files).after history).Among files path := ⟨after_resolve _ history, h⟩
    rw [after_concat]
    exact ih.use hamong (kept_after files history) (Logger.follows_after files history) u

/-- After any history, every path that keeps what it takes holds what someone else wrote there last,
or what was there at first, with the lines of the entries after it that were let through since then
while the path was the log file. The log file is the one that was opened last, unless that failed or
it was closed since. Opening a file makes it exist. -/
theorem log_file_contents (files : Files) (history : History) (path : Bytes)
    (hkeeps : files.Keeps path) :
    let d := (new files).after history
    d.logger.file = history.file files ∧
      d.channels.files.read? path =
        (history.base? files path).map (· ++ (history.linesSince files path).flatten) :=
  ⟨(Logger.follows_after files history).file, (holds_after history hkeeps).content⟩

/-- A file that is opened again goes on from what someone else left there. What was logged in the
meantime is not in it. -/
theorem reopened_log_file :
    let history : History :=
      [.openFile (ascii "a.log"), .log ⟨0⟩ ⟨.info, ascii "x", ascii "one"⟩,
        .rewrite (ascii "a.log") (ascii "note\n"), .openFile (ascii "no/b.log"),
        .log ⟨0⟩ ⟨.info, ascii "x", ascii "two"⟩, .openFile (ascii "a.log"),
        .log ⟨0⟩ ⟨.info, ascii "x", ascii "three"⟩]
    let d := (new .empty).after history
    d.logger.file = some (ascii "a.log") ∧ d.channels.files.read? (ascii "a.log") =
      some (ascii "note\n[1970-01-01 00:00:00] [INFO] [x] three\n") := by
  intro history d
  have hkeeps : Files.empty.Keeps (ascii "a.log") := fun _ => ⟨ascii "a.log", by decide⟩
  obtain ⟨hfile, hcontent⟩ := log_file_contents .empty history (ascii "a.log") hkeeps
  exact ⟨hfile.trans (by decide), hcontent.trans (by decide +kernel)⟩

end Desk

end Repl.Log
