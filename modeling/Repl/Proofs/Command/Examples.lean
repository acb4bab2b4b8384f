import Repl.Command.Help
import Repl.Proofs.Command.Resolution
import Repl.Proofs.Supply
import Repl.Proofs.Text.Trim
import Repl.Terminal.Scripted

/-!
Examples, from the help table back to the prompt. The table shows an example as a command line. If
the command's description breaks no rule of style and its name can be typed, that line is one that
users can enter.
-/

namespace Repl

/-! ## The rules for examples -/

theorem Lint.when_eq_nil_iff {violated : Bool} {lint : Lint} :
    Lint.when violated lint = [] ↔ violated = false := by
  cases violated with
  | true => exact ⟨nofun, nofun⟩
  | false => exact ⟨fun _ => rfl, fun _ => rfl⟩

/-- An example that breaks no rule has arguments, and no white space around them. -/
theorem Example.command_of_lints_eq_nil {name : Bytes} {e : Example} (h : e.lints name = []) :
    e.command ≠ [] ∧ Text.trim e.command = e.command := by
  rw [lints, List.append_eq_nil_iff, List.append_eq_nil_iff] at h
  obtain ⟨⟨-, hexcess⟩, hcommand⟩ := h
  refine ⟨?_, Text.hasExcessWhiteSpace_eq_false_iff.1 (Lint.when_eq_nil_iff.1 hexcess)⟩
  intro hempty
  rw [if_pos hempty] at hcommand
  cases hcommand

theorem Description.example_lints_eq_nil {name : Bytes} {d : Description} (h : d.lints name = [])
    {e : Example} (he : e ∈ d.examples) : e.lints name = [] := by
  rw [lints, List.append_eq_nil_iff, List.flatMap_eq_nil_iff] at h
  exact h.2 e he

/-! ## The help table -/

/-- Every line about a command but the first is a row of its own, without a label. -/
theorem HelpTable.row_mem_rows {entries : List HelpEntry} {entry : HelpEntry} {text : Bytes}
    (hentry : entry ∈ entries) (htext : text ∈ entry.lines.tail) :
    row (width entries) [] text ∈ rows entries := by
  refine List.mem_cons_of_mem _ (List.mem_flatMap.2 ⟨entry, hentry, ?_⟩)
  exact List.mem_cons_of_mem _ (List.mem_map_of_mem htext)

theorem HelpEntry.example_mem_lines {entry : HelpEntry} {e : Example}
    (he : e ∈ entry.description.examples) :
    ascii "    " ++ (entry.name ++ ascii " " ++ e.command) ∈ entry.lines.tail := by
  rw [← List.append_assoc, ← List.append_assoc]
  refine List.mem_cons_of_mem _ (List.mem_flatMap.2 ⟨e, he, ?_⟩)
  exact List.mem_cons_of_mem _ List.mem_cons_self

namespace Registry

variable {κ : Type} {r : Registry κ} {p : Parser κ} {e : Example}
  {parsers : List (Option (Parser κ))}

/-- The table has a row for every example of a registered command. -/
theorem example_mem_help (h : (register parsers).outcome = .ok r) (hp : some p ∈ parsers)
    (he : e ∈ p.description.examples) :
    HelpTable.row (HelpTable.width r.helpEntries) []
        (ascii "    " ++ (p.name ++ ascii " " ++ e.command)) ∈ HelpTable.rows r.helpEntries := by
  have hsorted : p ∈ r.sorted :=
    (sound_of_register h).mem_sorted_iff.2 ((mem_parsers_of_register h).1 hp)
  have hentry : HelpEntry.ofParser p ∈ r.helpEntries := List.mem_map_of_mem hsorted
  have hexample : e ∈ (HelpEntry.ofParser p).description.examples := he
  exact HelpTable.row_mem_rows hentry (HelpEntry.example_mem_lines hexample)

/-! ## The prompt -/

/-- The name of a registered command and an example of it, put together, are left to its parser. -/
theorem example_resolvesTo (h : (register parsers).outcome = .ok r) (hp : some p ∈ parsers)
    (hspace : Ascii.space ∉ p.name) (e : Example) :
    r.ResolvesTo (p.name ++ ascii " " ++ e.command) p e.command := by
  have hfind : r.find? p.name = some p :=
    (sound_of_register h).find?_eq_some_iff.2 ⟨(mem_parsers_of_register h).1 hp, .inl rfl⟩
  have hline : p.name ++ ascii " " ++ e.command = p.name ++ Ascii.space :: e.command :=
    List.append_assoc _ _ _
  have hne : p.name ++ ascii " " ++ e.command ≠ [] := by
    rw [hline]
    exact List.append_ne_nil_of_right_ne_nil _ (List.cons_ne_nil _ _)
  exact ⟨p.name, CommandLine.ofLine?_of_splits hne ⟨hspace, .inl hline⟩, hfind⟩

/-- Trimming leaves the line of an example as it is, if the name and the description are in order. -/
theorem trim_example (h : (register parsers).outcome = .ok r) (hp : some p ∈ parsers)
    (htrim : Text.trim p.name = p.name) (hlints : p.description.lints p.name = [])
    (he : e ∈ p.description.examples) :
    Text.trim (p.name ++ ascii " " ++ e.command) = p.name ++ ascii " " ++ e.command := by
  have hlength : 2 ≤ p.name.length := by
    have hregistrable := (register_ok_iff_registrable parsers).1.1 ⟨r, h⟩
    exact hregistrable.names p hp
  have hname : p.name ≠ [] := List.ne_nil_of_length_pos (by omega)
  have ⟨hcommand, hcommandTrim⟩ :=
    Example.command_of_lints_eq_nil (Description.example_lints_eq_nil hlints he)
  have hline : p.name ++ ascii " " ++ e.command = p.name ++ Ascii.space :: e.command :=
    List.append_assoc _ _ _
  rw [hline]
  exact Text.trim_append_space htrim hname hcommandTrim hcommand

end Registry

namespace Terminal

open Exchange

variable {τ α : Type} [Terminal τ]

/-- A question whose first line is accepted. -/
theorem readValue_of_accepted {prompt line : Bytes} {parse : Bytes → Except Bytes α} {value : α}
    {t prompted : τ} (hprint : Terminal.print prompt t = (.ok (), prompted))
    (hline : (Terminal.readLine prompted).1 = .ok line)
    (hparse : parse (Text.trim line) = .ok value) :
    readValue prompt parse t =
      ⟨.ok value, [⟨.prompt, .printed prompt⟩, ⟨.line, .lineRead line⟩],
        (Terminal.readLine prompted).2⟩ := by
  have hprinted : printFor .prompt prompt t = _ := printFor_of_eq hprint
  have hread := nextLine_of_outcome hline
  have hprintOk : (printFor .prompt prompt t).outcome = .ok () := by rw [hprinted]
  have hreadOk : (nextLine prompted).outcome = .ok line := by rw [hread]
  rw [readValue, readValueWithin, bind_apply_of_ok hprintOk, hprinted, bind_apply_of_ok hreadOk,
    hread, hparse]
  rfl

end Terminal

namespace Registry

variable {κ : Type} {r : Registry κ} {p : Parser κ} {e : Example}
  {parsers : List (Option (Parser κ))}

/-- What help shows can be typed. An example of a registered command stands in the help table,
indented; entered at a prompt without the indentation it is accepted at once, and it is the command
that the parser makes of the example. -/
theorem shown_example_accepted (h : (register parsers).outcome = .ok r) (hp : some p ∈ parsers)
    (hspace : Ascii.space ∉ p.name) (htrim : Text.trim p.name = p.name)
    (hlints : p.description.lints p.name = []) (he : e ∈ p.description.examples) :
    let line := p.name ++ ascii " " ++ e.command
    HelpTable.row (HelpTable.width r.helpEntries) [] (ascii "    " ++ line) ∈
        HelpTable.rows r.helpEntries ∧
      ∃ command, p.parse e.command = .ok (some command) ∧
        r.parse (Text.trim line) = .ok command ∧
          ∀ (τ : Type) [Terminal τ] (prompt : Bytes) (t prompted : τ),
            Terminal.print prompt t = (.ok (), prompted) →
              (Terminal.readLine prompted).1 = .ok line →
                Terminal.readValue prompt
                    (fun line => (r.parse line).mapError LineError.message) t =
                  ⟨.ok command, [⟨.prompt, .printed prompt⟩, ⟨.line, .lineRead line⟩],
                    (Terminal.readLine prompted).2⟩ := by
  intro line
  have hresolves : r.ResolvesTo line p e.command := example_resolvesTo h hp hspace e
  have hunchanged : Text.trim line = line := trim_example h hp htrim hlints he
  -- Registration has tried the example already.
  have hregistrable := (register_ok_iff_registrable parsers).1.1 ⟨r, h⟩
  obtain ⟨command, hcommand⟩ := hregistrable.examples p hp e he
  have hparse : r.parse (Text.trim line) = .ok command := by
    rw [hunchanged]
    exact hresolves.parse_eq_ok_iff.2 hcommand
  refine ⟨example_mem_help h hp he, command, hcommand, hparse, ?_⟩
  intro τ _ prompt t prompted hprint hline
  refine Terminal.readValue_of_accepted hprint hline ?_
  rw [hparse]
  rfl

/-- A command whose name ends in the first byte of an ideographic space. Its example has the others.
-/
def halved : Parser Bytes where
  name := [0x61, 0xE3]
  shorthand := none
  description := ⟨ascii "Shows a text.", ascii "<text>", [⟨ascii "show half a space", [0x80, 0x80]⟩]⟩
  parse text := .ok (some text)

/-- The halves stay apart, so the line keeps its end. -/
theorem halved_example_accepted :
    ∃ r, (register [some halved]).outcome = .ok r ∧ Text.trim halved.name = halved.name ∧
      halved.description.lints halved.name = [] ∧
      (Terminal.readValue (ascii "> ") (fun line => (r.parse line).mapError LineError.message)
          (Scripted.ofScript [.line [0x61, 0xE3, 0x20, 0x80, 0x80]] [])).outcome =
        .ok [0x80, 0x80] := by
  have hregister : (register [some halved]).outcome = .ok _ := rfl
  have htrim : Text.trim halved.name = halved.name := by decide
  have hlints : halved.description.lints halved.name = [] := by decide
  obtain ⟨-, command, hcommand, -, haccepted⟩ :=
    shown_example_accepted hregister List.mem_cons_self (by decide) htrim hlints List.mem_cons_self
  cases hcommand
  refine ⟨_, hregister, htrim, hlints, ?_⟩
  rw [haccepted Scripted (ascii "> ") _ _ rfl rfl]

end Registry

end Repl
