import Repl.Proofs.Log.History
import Repl.Proofs.Output.Files
import Repl.Proofs.Services

/-!
Where log entries go. An entry that is let through goes to the console, to the log file and to every
subscriber, to each of them once, and over a whole history a subscriber misses nothing. All of this
is so whatever standard exceptions subscribers throw; what else one of them throws keeps entries from
those who subscribed after it.
-/

namespace Repl.Log

/-- The console shows entries of the level on standard error, and all others on standard output. -/
def Entry.Grave (e : Entry) : Prop :=
  e.level = .warning ∨ e.level = .error

instance : DecidablePred Entry.Grave :=
  fun _ => inferInstanceAs (Decidable (_ ∨ _))

/-- The line that the log shows of an entry: `[time] [LEVEL] [category] message`. -/
def Entry.spelled (now : Timestamp) (e : Entry) : Bytes :=
  let level := match e.level with
    | .debug => "DEBUG"
    | .info => "INFO"
    | .warning => "WARNING"
    | .error => "ERROR"
    | .none => "NONE"
  [ascii "[", now.render, ascii "] [", ascii level, ascii "] [", e.category, ascii "] ",
    e.message].flatten

namespace Subscriber

/-- What is said on standard error of a subscriber that was handed an entry. -/
def outcry : Subscriber → Bytes
  | recording => []
  | failing message =>
    Text.withNewline
      (ascii "[LoggingSystem] Exception in log event callback: " ++ Text.untilNul message)
  | escaping => []

/-- What a subscriber with a number receives of an entry. -/
def notice? (e : Entry) : Subscriber × Nat → Option Notice
  | (recording, i) => some ⟨i, e⟩
  | (failing _, _) | (escaping, _) => none

/-- The subscribers before the first one from whom something escapes. -/
def audience (subscribers : List Subscriber) : List Subscriber :=
  subscribers.takeWhile fun s => s ≠ escaping

theorem audience_eq_self {subscribers : List Subscriber} (h : escaping ∉ subscribers) :
    audience subscribers = subscribers := by
  rw [audience, List.takeWhile_eq_self_iff]
  intro s hs
  exact decide_eq_true fun heq => h (heq ▸ hs)

theorem audience_append {earlier : List Subscriber} (h : escaping ∉ earlier)
    (later : List Subscriber) : audience (earlier ++ later) = earlier ++ audience later := by
  rw [audience, List.takeWhile_append_of_pos]
  · rfl
  · intro s hs
    exact decide_eq_true fun heq => h (heq ▸ hs)

/-- Those who subscribed after one from whom something escapes are in no audience. -/
theorem length_audience_append_lt {earlier : List Subscriber} (h : escaping ∈ earlier)
    (later : List Subscriber) : (audience (earlier ++ later)).length < earlier.length := by
  obtain ⟨front, back, rfl⟩ := List.append_of_mem h
  have hstop : audience (front ++ escaping :: (back ++ later)) = audience front := by
    rw [audience, List.takeWhile_append]
    split
    · rw [List.takeWhile_cons_of_neg (by simp), List.append_nil]
      exact (List.Sublist.eq_of_length (List.takeWhile_sublist _) ‹_›).symm
    · rfl
  rw [List.append_assoc, List.cons_append, hstop, List.length_append, List.length_cons]
  have hle : (front.takeWhile fun s => decide (s ≠ escaping)).length ≤ front.length :=
    (List.takeWhile_sublist _).length_le
  show (front.takeWhile _).length < _
  omega

end Subscriber

/-! ## One entry -/

namespace Logger

variable {l : Logger}

theorem line_eq_spelled (now : Timestamp) (e : Entry) : line now e = e.spelled now := by
  obtain ⟨level, category, message⟩ := e
  cases level <;> simp [line, Entry.spelled, Level.name]

theorem toConsole_eq (now : Timestamp) (e : Entry) (c : Channels) :
    toConsole now e c =
      if e.Grave then c.complain (e.spelled now)
      else { c with stdout := c.stdout.write (Text.withNewline (e.spelled now)) } := by
  rw [← line_eq_spelled]
  obtain ⟨level, category, message⟩ := e
  cases level with
  | warning => exact (if_pos (.inl rfl)).symm
  | error => exact (if_pos (.inr rfl)).symm
  | debug | info | none => exact (if_neg (by simp [Entry.Grave])).symm

/-- The audience leaves notices and makes complaints, and that is all. -/
theorem broadcast_eq (e : Entry) (subscribers : List Subscriber) (c : Channels) :
    broadcast e c subscribers.zipIdx =
      { c with
        stderr := c.stderr ++ (Subscriber.audience subscribers).flatMap Subscriber.outcry
        notices := c.notices ++
          (Subscriber.audience subscribers).zipIdx.filterMap (Subscriber.notice? e) } := by
  generalize 0 = n
  induction subscribers generalizing c n with
  | nil => simp [broadcast, Subscriber.audience]
  | cons first others ih =>
    cases first with
    | recording =>
      rw [List.zipIdx_cons, broadcast, ih]
      simp [Subscriber.audience, Subscriber.outcry, Subscriber.notice?]
    | failing message =>
      have haudience : Subscriber.audience (.failing message :: others) =
          .failing message :: Subscriber.audience others := by simp [Subscriber.audience]
      rw [List.zipIdx_cons, broadcast, ih, haudience, List.zipIdx_cons,
        List.filterMap_cons_none rfl]
      simp [Subscriber.outcry, Channels.complain]
    | escaping => simp [broadcast, Subscriber.audience]

theorem log_of_not_admits {e : Entry} (h : ¬l.admits e = true) (now : Timestamp) (c : Channels) :
    l.log now e c = c :=
  if_neg h

/-- The standard stream that the log file is, if it is one. -/
def logStream? (l : Logger) (files : Files) : Option StandardStream :=
  l.file.bind files.stream?

theorem logStream?_congr {files files' : Files} (h : files'.resolve = files.resolve) :
    l.logStream? files' = l.logStream? files :=
  congrArg l.file.bind (funext (Files.stream?_congr h))

/-- Everything that comes of an entry that is let through. -/
theorem log_of_admits {e : Entry} (h : l.admits e = true) (now : Timestamp) (c : Channels) :
    let text := Text.withNewline (e.spelled now)
    let shown := if l.console = true ∧ ¬e.Grave then c.stdout.write text else c.stdout
    let audience := Subscriber.audience l.subscribers
    l.log now e c =
      { stdout := if l.logStream? c.files = some .output then shown.append text else shown
        stderr := c.stderr ++ (if l.console = true ∧ e.Grave then text else []) ++
          (if l.logStream? c.files = some .error then text else []) ++
            audience.flatMap Subscriber.outcry
        notices := c.notices ++ audience.zipIdx.filterMap (Subscriber.notice? e)
        files := l.file.elim c.files fun path => c.files.append path text } := by
  dsimp only
  rw [log, if_pos h]
  dsimp only
  rw [broadcast_eq, toConsole_eq, logStream?]
  cases l.console with
  | false => cases l.file <;> simp [toFile, Channels.append, line_eq_spelled]
  | true =>
    by_cases hgrave : e.Grave <;> cases l.file <;>
      simp [hgrave, toFile, Channels.append, Channels.complain, line_eq_spelled]

end Logger

/-! ## A desk after a history -/

namespace Desk

variable {d : Desk} {files : Files} {history : History} {e : Entry}

/-- What is true of a desk at any time: standard output takes everything, the log file was opened and
exists if it is a file, and only subscribers have received anything. -/
structure Kept (d : Desk) : Prop where
  roomy : d.channels.Roomy
  opened : ∀ path, d.logger.file = some path → d.channels.files.writable path = true
  exists_logFile : ∀ path name, d.logger.file = some path → d.channels.files.place path = .file name →
    (d.channels.files.read? path).isSome = true
  notices : ∀ n ∈ d.channels.notices, n.subscriber < d.logger.subscribers.length

theorem kept_new (files : Files) : (new files).Kept where
  roomy := Sink.unlimited_unlimited
  opened := nofun
  exists_logFile := nofun
  notices := nofun

/-- A use that writes nothing keeps what is true, whether or not it closes the log file. -/
theorem Kept.of_channels_eq {u : Use} (h : d.Kept) (hchannels : (d.use u).channels = d.channels)
    (hfile : (d.use u).logger.file = d.logger.file ∨ (d.use u).logger.file = none) :
    (d.use u).Kept where
  roomy := hchannels ▸ h.roomy
  opened path hpath := by
    rw [hchannels]
    obtain hfile | hfile := hfile
    · exact h.opened path (hfile.symm.trans hpath)
    · cases hfile.symm.trans hpath
  exists_logFile path name hpath := by
    rw [hchannels]
    obtain hfile | hfile := hfile
    · exact h.exists_logFile path name (hfile.symm.trans hpath)
    · cases hfile.symm.trans hpath
  notices n hn := by
    rw [hchannels] at hn
    rw [use_subscribers, List.length_append]
    exact Nat.lt_add_right _ (h.notices n hn)

theorem use_log_of_not_admits (h : ¬d.logger.admits e = true) (now : Timestamp) :
    d.use (.log now e) = d :=
  congrArg (Desk.mk d.logger) (Logger.log_of_not_admits h now d.channels)

theorem use_log_of_admits (h : d.logger.admits e = true) (now : Timestamp) :
    let text := Text.withNewline (e.spelled now)
    let shown := if d.logger.console = true ∧ ¬e.Grave then d.channels.stdout.write text
      else d.channels.stdout
    let audience := Subscriber.audience d.logger.subscribers
    let logStream := d.logger.logStream? d.channels.files
    d.use (.log now e) =
      ⟨d.logger,
        { stdout := if logStream = some .output then shown.append text else shown
          stderr := d.channels.stderr ++ (if d.logger.console = true ∧ e.Grave then text else []) ++
            (if logStream = some .error then text else []) ++ audience.flatMap Subscriber.outcry
          notices := d.channels.notices ++ audience.zipIdx.filterMap (Subscriber.notice? e)
          files := d.logger.file.elim d.channels.files fun path =>
            d.channels.files.append path text }⟩ :=
  congrArg (Desk.mk d.logger) (Logger.log_of_admits h now d.channels)

theorem Kept.log (h : d.Kept) (now : Timestamp) (e : Entry) : (d.use (.log now e)).Kept := by
  have hresolve := d.use_resolve (.log now e)
  by_cases hadmits : d.logger.admits e = true
  · refine ⟨d.logger.log_roomy now e h.roomy, fun path hpath => ?_, fun path name hpath hname => ?_,
      fun n hn => ?_⟩
    · rw [Files.writable_congr hresolve]
      exact h.opened path hpath
    · rw [Files.place_congr hresolve] at hname
      have hexists := h.exists_logFile path name hpath hname
      have hfile : d.logger.file = some path := hpath
      rw [use_log_of_admits hadmits, hfile]
      exact Files.isSome_read?_append hexists path _
    · rw [use_log_of_admits hadmits] at hn ⊢
      rcases List.mem_append.1 hn with hn | hn
      · exact h.notices n hn
      · obtain ⟨⟨subscriber, i⟩, hmem, hnotice⟩ := List.mem_filterMap.1 hn
        have hi := List.snd_lt_of_mem_zipIdx hmem
        have haudience := (List.takeWhile_sublist (l := d.logger.subscribers)
          fun s => decide (s ≠ Subscriber.escaping)).length_le
        cases subscriber with
        | failing message | escaping => cases hnotice
        | recording =>
          cases hnotice
          show i < d.logger.subscribers.length
          rw [Nat.add_zero] at hi
          exact Nat.lt_of_lt_of_le hi haudience
  · rw [use_log_of_not_admits hadmits]
    exact h

theorem use_openFile_notices (d : Desk) (path : Bytes) :
    (d.use (.openFile path)).channels.notices = d.channels.notices := by
  show (d.logger.openFile path d.channels).2.2.notices = _
  unfold Logger.openFile
  split <;> rfl

theorem Kept.openFile (h : d.Kept) (path : Bytes) : (d.use (.openFile path)).Kept := by
  have hresolve := d.use_resolve (.openFile path)
  have hopened : ∀ current, (d.use (.openFile path)).logger.file = some current →
      current = path ∧ d.channels.files.writable path = true := by
    intro current hcurrent
    rw [use_file, Use.file?, Option.getD_some] at hcurrent
    split at hcurrent
    · exact ⟨(Option.some.inj hcurrent).symm, ‹_›⟩
    · cases hcurrent
  refine ⟨d.logger.openFile_roomy path h.roomy, fun current hcurrent => ?_,
    fun current name hcurrent hname => ?_, fun n hn => ?_⟩
  · obtain ⟨rfl, hwritable⟩ := hopened current hcurrent
    rwa [Files.writable_congr hresolve]
  · obtain ⟨rfl, hwritable⟩ := hopened current hcurrent
    rw [Files.place_congr hresolve] at hname
    show ((d.logger.openFile current d.channels).2.2.files.read? current).isSome = true
    rw [Logger.openFile, if_pos hwritable]
    show ((d.channels.files.append current []).read? current).isSome = true
    have hself : d.channels.files.Same current current := rfl
    rw [Files.read?_append_of_file hname, if_pos hself]
    rfl
  · rw [use_openFile_notices] at hn
    rw [use_subscribers, List.length_append]
    exact Nat.lt_add_right _ (h.notices n hn)

theorem Kept.rewrite (h : d.Kept) (path content : Bytes) : (d.use (.rewrite path content)).Kept := by
  have hresolve := d.use_resolve (.rewrite path content)
  refine ⟨h.roomy, fun current hcurrent => ?_, fun current name hcurrent hname => ?_, h.notices⟩
  · rw [Files.writable_congr hresolve]
    exact h.opened current hcurrent
  · rw [Files.place_congr hresolve] at hname
    have hexists := h.exists_logFile current name hcurrent hname
    exact Files.isSome_read?_write hexists path content

theorem Kept.use (h : d.Kept) (u : Use) : (d.use u).Kept := by
  cases u with
  | setLevel category level =>
    refine h.of_channels_eq rfl (.inl ?_)
    rw [use_file]
    rfl
  | subscribe | setConsole => exact h.of_channels_eq rfl (.inl rfl)
  | closeFile => exact h.of_channels_eq rfl (.inr rfl)
  | openFile path => exact h.openFile path
  | log now e => exact h.log now e
  | rewrite path content => exact h.rewrite path content

theorem kept_after (files : Files) (history : History) : ((new files).after history).Kept := by
  induction history using List.reverseRecOn with
  | nil => exact kept_new files
  | append_singleton history u ih =>
    rw [after_concat]
    exact ih.use u

/-! ## What a subscriber receives -/

/-- The entries that the subscriber with the number has received. -/
def received (d : Desk) (i : Nat) : List Entry :=
  (d.channels.notices.filter (·.subscriber = i)).map Notice.entry

/-- A recording subscriber receives an entry once. -/
theorem notices_of_subscriber (e : Entry) (subscribers : List Subscriber) (i : Nat) :
    ((subscribers.zipIdx.filterMap (Subscriber.notice? e)).filter (·.subscriber = i)).map
        Notice.entry =
      if subscribers[i]? = some .recording then [e] else [] := by
  -- From the end, where one subscriber more does not shift the numbers of the others.
  induction subscribers using List.reverseRecOn with
  | nil => rfl
  | append_singleton subscribers s ih =>
    have hlast : (subscribers ++ [s]).zipIdx =
        subscribers.zipIdx ++ [(s, subscribers.length)] := by
      rw [List.zipIdx_append, Nat.zero_add]
      rfl
    rw [hlast, filterMap_concat, List.filter_append, List.map_append, ih]
    by_cases hi : i = subscribers.length
    · rw [hi, List.getElem?_concat_length, List.getElem?_eq_none (Nat.le_refl _)]
      cases s <;> simp [Subscriber.notice?]
    · -- The last subscriber is another one.
      have hothers : (subscribers ++ [s])[i]? = subscribers[i]? := by
        rcases Nat.lt_or_gt_of_ne hi with hlt | hgt
        · exact List.getElem?_append_left hlt
        · rw [List.getElem?_eq_none (Nat.le_of_lt hgt), List.getElem?_eq_none]
          rw [List.length_append]
          exact hgt
      rw [hothers]
      cases s <;> simp [Subscriber.notice?, Ne.symm hi]

/-- A recording subscriber in the audience receives every entry that is let through; no one else
receives anything. -/
theorem received_log (d : Desk) (i : Nat) (now : Timestamp) (e : Entry) :
    (d.use (.log now e)).received i = d.received i ++
      if d.logger.admits e = true ∧
        (Subscriber.audience d.logger.subscribers)[i]? = some .recording then [e] else [] := by
  by_cases hadmits : d.logger.admits e = true
  · rw [use_log_of_admits hadmits, received, List.filter_append, List.map_append,
      notices_of_subscriber]
    simp only [hadmits, true_and]
    rfl
  · rw [use_log_of_not_admits hadmits, if_neg fun h => hadmits h.1, List.append_nil]

/-- One use more brings a subscriber the entry that it lets through, if it does. -/
theorem received_use (h : d.logger.Follows files history) (i : Nat) (u : Use) :
    (d.use u).received i = d.received i ++
      if (Subscriber.audience d.logger.subscribers)[i]? = some .recording then
        ((history.emission? u).map (·.2)).toList
      else [] := by
  cases u with
  | log now e =>
    rw [received_log, History.emission?]
    by_cases hi : (Subscriber.audience d.logger.subscribers)[i]? = some .recording
    · simp only [hi, and_true, if_true]
      by_cases hemits : history.Emits e
      · rw [if_pos ((h.admits_iff e).2 hemits), if_pos hemits]
        rfl
      · rw [if_neg (mt (h.admits_iff e).1 hemits), if_neg hemits]
        rfl
    · rw [if_neg fun hc => hi hc.2, if_neg hi]
  | openFile path =>
    rw [received, use_openFile_notices]
    exact (List.append_nil _).symm.trans (congrArg _ (ite_self []).symm)
  | setLevel | subscribe | setConsole | closeFile | rewrite =>
    exact (List.append_nil _).symm.trans (congrArg _ (ite_self []).symm)

theorem received_subscribe (h : d.Kept) (s : Subscriber) :
    (d.use (.subscribe s)).received d.logger.subscribers.length = [] := by
  rw [received, List.map_eq_nil_iff, List.filter_eq_nil_iff]
  intro n hn
  have hlt := h.notices n hn
  simpa using Nat.ne_of_lt hlt

/-- Whether a recording subscriber is in the audience is settled when it subscribes: by those who were
there before. -/
theorem getElem?_audience_iff (history later : History) :
    (Subscriber.audience
        (History.subscribers (history ++ .subscribe .recording :: later)))[
          history.subscribers.length]? = some .recording ↔
      .escaping ∉ history.subscribers := by
  rw [History.subscribers_append]
  constructor
  · intro hthere hescaping
    obtain ⟨hlt, -⟩ := List.getElem?_eq_some_iff.1 hthere
    exact absurd hlt
      (Nat.not_lt.2 (Nat.le_of_lt (Subscriber.length_audience_append_lt hescaping _)))
  · intro h
    rw [Subscriber.audience_append h, List.getElem?_append_right (Nat.le_refl _), Nat.sub_self]
    rfl

/-- A recording subscriber has received what was let through since it subscribed, or nothing at all if
something escapes from one before it. -/
theorem received_since (files : Files) (history later : History) :
    ((new files).after (history ++ .subscribe .recording :: later)).received
        history.subscribers.length =
      if .escaping ∈ history.subscribers then []
      else (History.emissions (history ++ [.subscribe .recording]) later).map (·.2) := by
  induction later using List.reverseRecOn with
  | nil =>
    -- Notices only bear the numbers of subscribers that were there, and this one is new.
    have hfollows := Logger.follows_after files history
    rw [after_concat, ← hfollows.subscribers, received_subscribe (kept_after files history)]
    exact (ite_self []).symm
  | append_singleton later u ih =>
    have hsplit : history ++ .subscribe .recording :: later =
        (history ++ [.subscribe .recording]) ++ later := List.append_cons ..
    have hfollows := Logger.follows_after files (history ++ .subscribe .recording :: later)
    have hthere := getElem?_audience_iff history later
    rw [← hfollows.subscribers] at hthere
    rw [← List.cons_append, ← List.append_assoc, after_concat, received_use hfollows, ih,
      History.emissions_concat, List.map_append, ← hsplit]
    by_cases hescaping : Subscriber.escaping ∈ history.subscribers
    · rw [if_pos hescaping, if_pos hescaping, if_neg fun h => hthere.1 h hescaping]
      rfl
    · rw [if_neg hescaping, if_neg hescaping, if_pos (hthere.2 hescaping)]
      cases (history ++ .subscribe .recording :: later).emission? u <;> rfl

/-! ## What a log call does -/

/-- An entry that is logged after a history reaches the console, the log file and the audience, each
of them once, and nothing else. The log file may be a standard stream. -/
structure Delivered (files : Files) (history : History) (audience : List Subscriber)
    (now : Timestamp) (e : Entry) (d d' : Desk) : Prop where
  logger : d'.logger = d.logger
  stdout : d'.channels.stdout.written = d.channels.stdout.written ++
    (if history.console = true ∧ ¬e.Grave then Text.withNewline (e.spelled now) else []) ++
    if history.logStream? files = some .output then Text.withNewline (e.spelled now) else []
  /-- Every failure of a subscriber shows, after the entry itself. -/
  stderr : d'.channels.stderr = d.channels.stderr ++
    (if history.console = true ∧ e.Grave then Text.withNewline (e.spelled now) else []) ++
    (if history.logStream? files = some .error then Text.withNewline (e.spelled now) else []) ++
    audience.flatMap Subscriber.outcry
  logFile : ∀ path name, history.file files = some path → files.place path = .file name →
    ∃ content, d.channels.files.read? path = some content ∧
      d'.channels.files.read? path = some (content ++ Text.withNewline (e.spelled now))
  otherFiles : ∀ path,
    (∀ logFile, history.file files = some logFile → ¬files.Same logFile path) →
      d'.channels.files.read? path = d.channels.files.read? path
  notices : d'.channels.notices = d.channels.notices ++
    audience.zipIdx.filterMap (Subscriber.notice? e)

theorem Kept.delivered (hkept : d.Kept) (h : d.logger.Follows files history)
    (hresolve : d.channels.files.resolve = files.resolve) (hemits : history.Emits e)
    (now : Timestamp) :
    Delivered files history (Subscriber.audience history.subscribers) now e d
      (d.use (.log now e)) := by
  have hstream : d.logger.logStream? d.channels.files = history.logStream? files := by
    rw [Logger.logStream?_congr hresolve, Logger.logStream?, History.logStream?, h.file]
  rw [use_log_of_admits ((h.admits_iff e).2 hemits), hstream, h.console, h.subscribers]
  refine ⟨rfl, ?_, rfl, fun path name hpath hname => ?_, fun path hother => ?_, rfl⟩
  · have hshown : (if history.console = true ∧ ¬e.Grave then
          d.channels.stdout.write (Text.withNewline (e.spelled now))
        else d.channels.stdout).Unlimited ∧
        (if history.console = true ∧ ¬e.Grave then
          d.channels.stdout.write (Text.withNewline (e.spelled now))
        else d.channels.stdout).written = d.channels.stdout.written ++
          if history.console = true ∧ ¬e.Grave then Text.withNewline (e.spelled now) else [] := by
      split
      · exact ⟨hkept.roomy.write _, hkept.roomy.written_write _⟩
      · exact ⟨hkept.roomy, (List.append_nil _).symm⟩
    dsimp only
    rw [← hshown.2]
    split
    · exact hshown.1.written_append _
    · exact (List.append_nil _).symm
  · -- The log file exists as long as it is the log file, so that the line is added to a content.
    have hfile : d.logger.file = some path := h.file.trans hpath
    rw [← Files.place_congr hresolve] at hname
    have hself : d.channels.files.Same path path := rfl
    obtain ⟨content, hcontent⟩ :=
      Option.isSome_iff_exists.1 (hkept.exists_logFile path name hfile hname)
    refine ⟨content, hcontent, ?_⟩
    dsimp only
    rw [hfile, Option.elim_some, Files.read?_append_of_file hname, if_pos hself, hcontent]
    rfl
  · dsimp only
    cases hfile : d.logger.file with
    | none => rfl
    | some logFile =>
      have hdiffers : ¬d.channels.files.Same logFile path := by
        have hdiffers := hother logFile (h.file.symm.trans hfile)
        rwa [Files.Same, ← Files.place_congr hresolve, ← Files.place_congr hresolve] at hdiffers
      rw [Option.elim_some]
      by_cases hname : ∃ name, d.channels.files.place logFile = .file name
      · obtain ⟨name, hname⟩ := hname
        rw [Files.read?_append_of_file hname, if_neg hdiffers]
      · rw [Files.append_of_not_file (not_exists.1 hname)]

/-- After any history, an entry whose category has the level `none` there, or one above its own,
changes nothing at all, and any other is delivered to the audience. -/
theorem use_log (files : Files) (history : History) (now : Timestamp) (e : Entry) :
    let d := (new files).after history
    if history.Emits e then
      Delivered files history (Subscriber.audience history.subscribers) now e d (d.use (.log now e))
    else d.use (.log now e) = d := by
  have hfollows := Logger.follows_after files history
  by_cases hemits : history.Emits e
  · exact if_pos hemits ▸ (kept_after files history).delivered hfollows
      (after_resolve _ history) hemits now
  · exact if_neg hemits ▸ use_log_of_not_admits (mt (hfollows.admits_iff e).1 hemits) now

/-- What is no standard exception is not caught, and those who subscribed later receive nothing. -/
example :
    let d := (new .empty).after [.subscribe .escaping, .subscribe .recording]
    d.logger.throws ⟨.info, ascii "net", ascii "up"⟩ = true ∧
      (d.use (.log ⟨0⟩ ⟨.info, ascii "net", ascii "up"⟩)).received 1 = [] := by
  decide

end Desk

end Repl.Log
