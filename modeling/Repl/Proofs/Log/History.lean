import Mathlib.Data.List.Induction
import Repl.Log.Logger
import Repl.Proofs.Output.Files
import Repl.Proofs.Text.Lines

/-!
A logger over a history of uses. The history alone tells what the logger lets through, and where to:
the levels and the switch that were set last, the file that was to be opened last, and everyone who
has subscribed.
-/

namespace Repl.Log

/-- Something that is done with a logger, or to files behind its back. -/
inductive Use where
  | setLevel (category : Bytes) (level : Level)
  | subscribe (s : Subscriber)
  | setConsole (enabled : Bool)
  | openFile (path : Bytes)
  | closeFile
  | log (now : Timestamp) (e : Entry)
  /-- Someone else writes a file. -/
  | rewrite (path content : Bytes)
  deriving DecidableEq, Repr

abbrev History := List Use

/-- A logger with the places that it writes to. -/
structure Desk where
  logger : Logger
  channels : Channels

namespace Desk

/-- A new logger among files. -/
def new (files : Files) : Desk :=
  ⟨.new, .ofFiles files .unlimited⟩

def use (d : Desk) : Use → Desk
  | .setLevel category level => { d with logger := d.logger.setLevel category level }
  | .subscribe s => { d with logger := d.logger.subscribe s }
  | .setConsole enabled => { d with logger := d.logger.setConsole enabled }
  | .openFile path =>
    let (_, logger, channels) := d.logger.openFile path d.channels
    ⟨logger, channels⟩
  | .closeFile => { d with logger := d.logger.closeFile }
  | .log now e => { d with channels := d.logger.log now e d.channels }
  | .rewrite path content =>
    { d with channels := { d.channels with files := d.channels.files.write path content } }

def after (d : Desk) (history : History) : Desk :=
  history.foldl use d

theorem after_concat (d : Desk) (history : History) (u : Use) :
    d.after (history ++ [u]) = (d.after history).use u := by
  rw [after, List.foldl_append]
  rfl

end Desk

/-! ## What a history tells -/

namespace Use

/-- The level that the use sets for the category. The empty category has none. -/
def level? (category : Bytes) : Use → Option Level
  | setLevel other level => if other = category ∧ category ≠ [] then some level else none
  | subscribe _ | setConsole _ | openFile _ | closeFile | log .. | rewrite .. => none

def console? : Use → Option Bool
  | setConsole enabled => some enabled
  | setLevel .. | subscribe _ | openFile _ | closeFile | log .. | rewrite .. => none

def subscriber? : Use → Option Subscriber
  | subscribe s => some s
  | setLevel .. | setConsole _ | openFile _ | closeFile | log .. | rewrite .. => none

/-- The log file that is open after the use, if the use is about that. A file that cannot be opened
leaves none. -/
def file? (files : Files) : Use → Option (Option Bytes)
  | openFile path => some (if files.writable path then some path else none)
  | closeFile => some none
  | setLevel .. | subscribe _ | setConsole _ | log .. | rewrite .. => none

end Use

namespace History

variable {α : Type}

/-- What the last use tells, of those that tell anything. -/
def last? (tells : Use → Option α) (history : History) : Option α :=
  (history.filterMap tells).getLast?

/-- The level of a category: the last one set for it, or else for the default category. -/
def level (history : History) (category : Bytes) : Level :=
  ((history.last? (Use.level? category)).or (history.last? (Use.level? defaultCategory))).getD .info

def console (history : History) : Bool :=
  (history.last? Use.console?).getD true

def subscribers (history : History) : List Subscriber :=
  history.filterMap Use.subscriber?

/-- The path of the log file: that of the last opening, if it succeeded and the file was not closed
since. -/
def file (files : Files) (history : History) : Option Bytes :=
  (history.last? (Use.file? files)).join

/-- The standard stream that the log file is, if it is one. -/
def logStream? (files : Files) (history : History) : Option StandardStream :=
  (history.file files).bind files.stream?

/-- An entry that is logged after the history is let through. -/
def Emits (history : History) (e : Entry) : Prop :=
  history.level e.category ≠ .none ∧ (history.level e.category).rank ≤ e.level.rank

instance (history : History) : DecidablePred history.Emits :=
  fun _ => inferInstanceAs (Decidable (_ ∧ _))

/-- The uses of `later`, each with the history before it, which begins with `earlier`. -/
def moments (earlier : History) : History → List (History × Use)
  | [] => []
  | u :: later => (earlier, u) :: moments (earlier ++ [u]) later

/-- The entry that a use after a history lets through, with the time that it shows. -/
def emission? (earlier : History) : Use → Option (Timestamp × Entry)
  | .log now e => if earlier.Emits e then some (now, e) else none
  | .setLevel .. | .subscribe _ | .setConsole _ | .openFile _ | .closeFile | .rewrite .. => none

/-- The entries that the uses of `later` let through. -/
def emissions (earlier later : History) : List (Timestamp × Entry) :=
  (moments earlier later).filterMap fun (before, u) => before.emission? u

/-! ## One use more -/

theorem last?_concat (tells : Use → Option α) (history : History) (u : Use) :
    last? tells (history ++ [u]) = (tells u).or (history.last? tells) := by
  rw [last?, filterMap_concat, List.getLast?_append, last?]
  cases tells u <;> rfl

theorem subscribers_append (earlier later : History) :
    subscribers (earlier ++ later) = earlier.subscribers ++ later.subscribers :=
  List.filterMap_append

theorem moments_concat (earlier later : History) (u : Use) :
    moments earlier (later ++ [u]) = moments earlier later ++ [(earlier ++ later, u)] := by
  induction later generalizing earlier with
  | nil =>
    rw [List.append_nil]
    rfl
  | cons first later ih =>
    rw [List.cons_append, moments, ih, moments, List.append_assoc]
    rfl

theorem emissions_concat (earlier later : History) (u : Use) :
    emissions earlier (later ++ [u]) =
      emissions earlier later ++ (emission? (earlier ++ later) u).toList := by
  rw [emissions, moments_concat, filterMap_concat, emissions]

end History

/-! ## What a use does to the logger -/

theorem Logger.openFile_logger (l : Logger) (path : Bytes) (c : Channels) :
    (l.openFile path c).2.1 =
      { l with file := if c.files.writable path then some path else none } := by
  unfold openFile
  split <;> rfl

theorem Logger.openFile_stdout (l : Logger) (path : Bytes) (c : Channels) :
    (l.openFile path c).2.2.stdout = c.stdout := by
  unfold openFile
  split <;> rfl

theorem Logger.openFile_resolve (l : Logger) (path : Bytes) (c : Channels) :
    (l.openFile path c).2.2.files.resolve = c.files.resolve := by
  unfold openFile
  split
  · exact Files.append_resolve ..
  · rfl

theorem Logger.broadcast_files (e : Entry) (subscribers : List (Subscriber × Nat)) (c : Channels) :
    (broadcast e c subscribers).files = c.files := by
  induction subscribers generalizing c with
  | nil => rfl
  | cons first others ih =>
    obtain ⟨subscriber, i⟩ := first
    cases subscriber with
    | recording | failing message => exact ih _
    | escaping => rfl

theorem Logger.toConsole_files (now : Timestamp) (e : Entry) (c : Channels) :
    (toConsole now e c).files = c.files := by
  unfold toConsole
  cases e.level <;> rfl

theorem Logger.log_resolve (l : Logger) (now : Timestamp) (e : Entry) (c : Channels) :
    (l.log now e c).files.resolve = c.files.resolve := by
  have hconsole : (if l.console then toConsole now e c else c).files = c.files := by
    split
    · exact toConsole_files now e c
    · rfl
  unfold log
  split
  · dsimp only
    rw [broadcast_files, ← hconsole]
    cases l.file with
    | none => rfl
    | some path => exact Files.append_resolve ..
  · rfl

theorem Logger.setLevel_eq (l : Logger) (category : Bytes) (level : Level) :
    l.setLevel category level =
      { l with
        levels := if category = [] then l.levels else l.levels.insert category level
        fallback := if category = defaultCategory then level else l.fallback } := by
  unfold setLevel
  by_cases hempty : category = []
  · have hdefault : category ≠ defaultCategory := by
      rw [hempty]
      decide
    rw [if_pos hempty, if_pos hempty, if_neg hdefault]
  · rw [if_neg hempty, if_neg hempty]

namespace Desk

variable (d : Desk) (u : Use)

theorem use_levels (category : Bytes) :
    (d.use u).logger.levels.find? category =
      (u.level? category).or (d.logger.levels.find? category) := by
  cases u with
  | setLevel other level =>
    show (d.logger.setLevel other level).levels.find? category = _
    rw [Logger.setLevel_eq, Use.level?]
    dsimp only
    by_cases hempty : other = []
    · rw [if_pos hempty, if_neg fun h => h.2 (h.1.symm.trans hempty), Option.none_or]
    · rw [if_neg hempty, Dictionary.find?_insert]
      by_cases hsame : category = other
      · rw [if_pos hsame, if_pos ⟨hsame.symm, hsame ▸ hempty⟩, Option.some_or]
      · rw [if_neg hsame, if_neg fun h => hsame h.1.symm, Option.none_or]
  | openFile path =>
    show (d.logger.openFile path d.channels).2.1.levels.find? category = _
    rw [Logger.openFile_logger]
    rfl
  | subscribe | setConsole | closeFile | log | rewrite => rfl

theorem use_fallback :
    (d.use u).logger.fallback = (u.level? defaultCategory).getD d.logger.fallback := by
  cases u with
  | setLevel category level =>
    show (d.logger.setLevel category level).fallback = _
    rw [Logger.setLevel_eq, Use.level?]
    dsimp only
    by_cases hdefault : category = defaultCategory
    · rw [if_pos hdefault, if_pos ⟨hdefault, List.cons_ne_nil _ _⟩, Option.getD_some]
    · rw [if_neg hdefault, if_neg fun h => hdefault h.1, Option.getD_none]
  | openFile path =>
    show (d.logger.openFile path d.channels).2.1.fallback = _
    rw [Logger.openFile_logger]
    rfl
  | subscribe | setConsole | closeFile | log | rewrite => rfl

theorem use_console : (d.use u).logger.console = u.console?.getD d.logger.console := by
  cases u with
  | setLevel category level =>
    show (d.logger.setLevel category level).console = _
    rw [Logger.setLevel_eq]
    rfl
  | openFile path =>
    show (d.logger.openFile path d.channels).2.1.console = _
    rw [Logger.openFile_logger]
    rfl
  | subscribe | setConsole | closeFile | log | rewrite => rfl

theorem use_subscribers :
    (d.use u).logger.subscribers = d.logger.subscribers ++ u.subscriber?.toList := by
  cases u with
  | subscribe _ => rfl
  | setLevel category level =>
    show (d.logger.setLevel category level).subscribers = _
    rw [Logger.setLevel_eq]
    exact (List.append_nil _).symm
  | openFile path =>
    show (d.logger.openFile path d.channels).2.1.subscribers = _
    rw [Logger.openFile_logger]
    exact (List.append_nil _).symm
  | setConsole | closeFile | log | rewrite => exact (List.append_nil _).symm

/-- What paths name does not change. -/
theorem use_resolve : (d.use u).channels.files.resolve = d.channels.files.resolve := by
  cases u with
  | openFile path => exact d.logger.openFile_resolve path d.channels
  | log now e => exact d.logger.log_resolve now e d.channels
  | rewrite path content => exact Files.write_resolve ..
  | setLevel | subscribe | setConsole | closeFile => rfl

theorem after_resolve (history : History) :
    (d.after history).channels.files.resolve = d.channels.files.resolve :=
  List.foldlRecOn history use (motive := fun other : Desk =>
    other.channels.files.resolve = d.channels.files.resolve) rfl
    fun other h u _ => (other.use_resolve u).trans h

theorem use_file :
    (d.use u).logger.file = (u.file? d.channels.files).getD d.logger.file := by
  cases u with
  | setLevel category level =>
    show (d.logger.setLevel category level).file = _
    rw [Logger.setLevel_eq]
    rfl
  | openFile path =>
    show (d.logger.openFile path d.channels).2.1.file = _
    rw [Logger.openFile_logger]
    rfl
  | subscribe | setConsole | closeFile | log | rewrite => rfl

end Desk

/-! ## The logger after a history -/

namespace Logger

variable {l : Logger} {files : Files} {history : History}

/-- The logger is as the history tells, among files. -/
structure Follows (l : Logger) (files : Files) (history : History) : Prop where
  levels : ∀ category, l.levels.find? category =
    (history.last? (Use.level? category)).or (if category = defaultCategory then some .info else none)
  fallback : l.fallback = (history.last? (Use.level? defaultCategory)).getD .info
  console : l.console = history.console
  subscribers : l.subscribers = history.subscribers
  file : l.file = history.file files

theorem follows_new (files : Files) : new.Follows files [] where
  levels category := by
    rw [new, Dictionary.find?_insert, Dictionary.find?_empty]
    rfl
  fallback := rfl
  console := rfl
  subscribers := rfl
  file := rfl

theorem Follows.use {d : Desk} (h : d.logger.Follows files history)
    (hresolve : d.channels.files.resolve = files.resolve) (u : Use) :
    (d.use u).logger.Follows files (history ++ [u]) where
  levels category := by rw [Desk.use_levels, h.levels, History.last?_concat, Option.or_assoc]
  fallback := by
    rw [Desk.use_fallback, h.fallback, History.last?_concat]
    cases u.level? defaultCategory <;> rfl
  console := by
    rw [Desk.use_console, h.console, History.console, History.console, History.last?_concat]
    cases u.console? <;> rfl
  subscribers := by
    rw [Desk.use_subscribers, h.subscribers, History.subscribers, History.subscribers,
      filterMap_concat]
  file := by
    have hfile : u.file? d.channels.files = u.file? files := by
      cases u <;> simp only [Use.file?, Files.writable_congr hresolve]
    rw [Desk.use_file, h.file, hfile, History.file, History.file, History.last?_concat]
    cases u.file? files <;> rfl

/-- Every history is followed by the logger that it leaves. -/
theorem follows_after (files : Files) (history : History) :
    ((Desk.new files).after history).logger.Follows files history := by
  induction history using List.reverseRecOn with
  | nil => exact follows_new files
  | append_singleton history u ih =>
    rw [Desk.after_concat]
    exact ih.use (Desk.after_resolve _ history) u

theorem Follows.level_eq (h : l.Follows files history) (category : Bytes) :
    l.level category = history.level category := by
  rw [level, h.levels, h.fallback, History.level]
  by_cases hdefault : category = defaultCategory
  · rw [if_pos hdefault, hdefault]
    cases history.last? (Use.level? defaultCategory) <;> rfl
  · rw [if_neg hdefault]
    cases history.last? (Use.level? category) <;> rfl

/-- What the logger lets through is told by the history. -/
theorem Follows.admits_iff (h : l.Follows files history) (e : Entry) :
    l.admits e = true ↔ history.Emits e := by
  rw [admits, h.level_eq, Level.admits, Bool.and_eq_true, bne_iff_ne, decide_eq_true_iff]
  rfl

end Logger

end Repl.Log
