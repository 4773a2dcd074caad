/-
The texts of the commands of `resetConnection` (`gateway/reset.go`), read as the server reads them. Quotes in the
database, the time zone and the SQL mode are written twice. Backslashes are not, so a string denotes the baseline
value only where every backslash stands before a wildcard.
-/
import Accelerator.Gateway.Checkout
import Accelerator.Sql.Literals

namespace Accelerator.Gateway

open Strings Upstream Sql

/-! ## What a command is to denote -/

/-- A keyword or a name without quotes. -/
def keyword (s : Text) : Atom := .other (.word (s.map keyUpper))

/-- What a command is to denote: its keywords, and the baseline values as they are. -/
def ResetCommand.atoms : ResetCommand → List Atom
  | .rollback => [keyword (Strings.text "ROLLBACK")]
  | .autocommit => [keyword (Strings.text "SET"), keyword (Strings.text "autocommit"), .other (.symbol (.chr '=')),
      keyword (Strings.text "1")]
  | .useDatabase database => [keyword (Strings.text "USE"), .identifier database]
  | .setNames charset collation => [keyword (Strings.text "SET"), keyword (Strings.text "NAMES"), keyword charset,
      keyword (Strings.text "COLLATE"), keyword collation]
  | .timeZone value => [keyword (Strings.text "SET"), keyword (Strings.text "SESSION"),
      keyword (Strings.text "time_zone"), .other (.symbol (.chr '=')), .string value]
  | .sqlMode value => [keyword (Strings.text "SET"), keyword (Strings.text "SESSION"),
      keyword (Strings.text "sql_mode"), .other (.symbol (.chr '=')), .string value]
  | .isolation level => [keyword (Strings.text "SET"), keyword (Strings.text "SESSION"),
      keyword (Strings.text "TRANSACTION"), keyword (Strings.text "ISOLATION"), keyword (Strings.text "LEVEL")] ++
      (fields level).map keyword
  | .readWrite => [keyword (Strings.text "SET"), keyword (Strings.text "SESSION"), keyword (Strings.text "TRANSACTION"),
      keyword (Strings.text "READ"), keyword (Strings.text "WRITE")]

/-- The text of a command is one statement, and it denotes what it is to. -/
def ResetCommand.Denotes (command : ResetCommand) : Prop :=
  statements command.text = 1 ∧ Sql.atoms command.text = some command.atoms

instance (command : ResetCommand) : Decidable command.Denotes := inferInstanceAs (Decidable (_ ∧ _))

/-- The commands `resetConnection` sends for a baseline. -/
inductive Sends (baseline : Metadata) : List ResetCommand → Prop
  | intro {isolation : Text} : resetIsolation baseline.transactionIsolation = .ok isolation →
      safeResetIdentifier baseline.characterSet = true → safeResetIdentifier baseline.collation = true →
      Sends baseline (resetCommands baseline isolation)

/-- The backslashes of the strings stand before wildcards, and the characters of the database are permitted in an
identifier. -/
def Quotable (baseline : Metadata) : Prop :=
  baseline.database.all permitted = true ∧ backslashesKept baseline.timeZone = true ∧
    backslashesKept baseline.sqlMode = true

instance (baseline : Metadata) : Decidable (Quotable baseline) := inferInstanceAs (Decidable (_ ∧ _))

/-- These are the commands that `resetConnection` runs. -/
theorem resetConnection_of_sends {baseline : Metadata} {commands : List ResetCommand} (h : Sends baseline commands)
    (c : Conn) : ∃ k, resetConnection c baseline = runResetCommands c 0 commands >>= k := by
  obtain ⟨hisolation, hcharset, hcollation⟩ := h
  unfold resetConnection
  rw [hisolation, hcharset, hcollation]
  exact ⟨_, rfl⟩

/-! ## Quoting -/

theorem quoteResetIdentifier_eq (value : Text) :
    quoteResetIdentifier value = .chr '`' :: (doubled (.chr '`') value ++ [.chr '`']) := by
  rw [← replaceAll_quote]
  rfl

theorem quoteResetString_eq (value : Text) :
    quoteResetString value = .chr '\'' :: (doubled (.chr '\'') value ++ [.chr '\'']) := by
  rw [← replaceAll_quote]
  rfl

theorem map_cons_eq_some_iff {α : Type} {o : Option (List α)} {a : α} {l : List α} :
    o.map (a :: ·) = some (a :: l) ↔ o = some l := by
  cases o with
  | none => exact iff_of_false nofun nofun
  | some l' => simp

theorem atoms_equals (t : Text) : Sql.atoms (.chr '=' :: t) = (Sql.atoms t).map (.other (.symbol (.chr '=')) :: ·) := by
  have hread : readAtom false (.chr '=') t = some (some (.other (.symbol (.chr '='))), false, t) := rfl
  rw [atoms_cons hread]
  rfl

/-- An identifier in backquotes denotes the database if its characters are permitted. -/
theorem useDatabase_denotes_iff (database : Text) :
    (ResetCommand.useDatabase database).Denotes ↔ database.all permitted = true := by
  have htext : (ResetCommand.useDatabase database).text = text "USE " ++ quoteResetIdentifier database := rfl
  have hone : statements (text "USE " ++ quoteResetIdentifier database) = 1 := by
    rw [quoteResetIdentifier_eq]
    refine statements_plain (by decide) (by decide) ?_
    exact pieces_literal (by decide) (fun v _ => closes_identifier v) database trivial
  have hatoms : Sql.atoms (text "USE " ++ quoteResetIdentifier database) =
      (Sql.atoms (quoteResetIdentifier database)).map (keyword (text "USE") :: ·) :=
    atoms_word_blank (w := text "USE") (by decide) (by decide)
  rw [ResetCommand.Denotes, htext, hatoms, and_iff_right hone, ResetCommand.atoms, map_cons_eq_some_iff,
    quoteResetIdentifier_eq]
  exact atoms_identifier_iff database

/-- A string in quotes denotes the value if its backslashes stand before wildcards. -/
theorem setSession_denotes_iff (name : Text) (hne : name ≠ []) (hname : ∀ c ∈ name, isWordSym c = true)
    (hplain : ∀ c ∈ name, isPlain c = true) (value : Text) :
    (statements (text "SET SESSION " ++ name ++ text " = " ++ quoteResetString value) = 1 ∧
      Sql.atoms (text "SET SESSION " ++ name ++ text " = " ++ quoteResetString value) =
        some [keyword (text "SET"), keyword (text "SESSION"), keyword name, .other (.symbol (.chr '=')),
          .string value]) ↔ backslashesKept value = true := by
  have hatoms : Sql.atoms (text "SET SESSION " ++ name ++ text " = " ++ quoteResetString value) =
      ((((Sql.atoms (quoteResetString value)).map (.other (.symbol (.chr '=')) :: ·)).map (keyword name :: ·)).map
        (keyword (text "SESSION") :: ·)).map (keyword (text "SET") :: ·) := by
    have hassoc : text "SET SESSION " ++ name ++ text " = " ++ quoteResetString value =
        text "SET" ++ .chr ' ' :: (text "SESSION" ++ .chr ' ' :: (name ++ .chr ' ' :: .chr '=' :: .chr ' ' ::
          quoteResetString value)) := by
      simp only [List.append_assoc]
      rfl
    rw [hassoc, atoms_word_blank (by decide) (by decide), atoms_word_blank (by decide) (by decide),
      atoms_word_blank hne hname, atoms_equals, atoms_blank rfl]
    rfl
  rw [hatoms, map_cons_eq_some_iff, map_cons_eq_some_iff, map_cons_eq_some_iff, map_cons_eq_some_iff,
    quoteResetString_eq, atoms_string_iff]
  refine and_iff_right_of_imp fun hkept => ?_
  refine statements_plain ?_ ⟨.chr 'S', by simp [text], by decide⟩
    (pieces_literal (by decide) closes_string value hkept)
  have hset : ∀ c ∈ text "SET SESSION ", isPlain c = true := by decide
  have hequals : ∀ c ∈ text " = ", isPlain c = true := by decide
  simp only [List.forall_mem_append]
  exact ⟨⟨hset, hplain⟩, hequals⟩

theorem timeZone_denotes_iff (value : Text) :
    (ResetCommand.timeZone value).Denotes ↔ backslashesKept value = true :=
  setSession_denotes_iff (text "time_zone") (by decide) (by decide) (by decide) value

theorem sqlMode_denotes_iff (value : Text) :
    (ResetCommand.sqlMode value).Denotes ↔ backslashesKept value = true :=
  setSession_denotes_iff (text "sql_mode") (by decide) (by decide) (by decide) value

/-! ## The other commands -/

/-- A safe name is a word of plain characters. -/
theorem safeResetIdentifier_spec {value : Text} (h : safeResetIdentifier value = true) :
    value ≠ [] ∧ (∀ c ∈ value, isWordSym c = true) ∧ ∀ c ∈ value, isPlain c = true := by
  rw [safeResetIdentifier, Bool.and_eq_true, List.all_eq_true] at h
  obtain ⟨hne, hall⟩ := h
  refine ⟨?_, fun c hc => ?_, fun c hc => ?_⟩
  · rintro rfl
    cases hne
  · have hsafe := hall c hc
    cases c with
    | bad b => cases hsafe
    | chr c =>
      simp only [safeResetRune, Bool.or_eq_true, Bool.and_eq_true, beq_iff_eq, decide_eq_true_eq, char_le_iff] at hsafe
      simp only [isWordSym, Sql.isDigit, Bool.or_eq_true, Bool.and_eq_true, decide_eq_true_eq]
      rcases hsafe with ((rfl | h) | h) | h
      · decide
      · exact .inl (.inl (.inl (.inr h)))
      · exact .inl (.inl (.inl (.inl (.inr h))))
      · exact .inl (.inl (.inl (.inl (.inl h))))
  · -- no special character is safe
    have hspecial : ∀ d ∈ text "#-/;'\"`", safeResetRune d = false := by decide
    rw [isPlain, decide_eq_true_eq]
    intro hmem
    have hsafe := hall c hc
    rw [hspecial c hmem] at hsafe
    cases hsafe

theorem setNames_denotes {charset collation : Text} (hcharset : safeResetIdentifier charset = true)
    (hcollation : safeResetIdentifier collation = true) : (ResetCommand.setNames charset collation).Denotes := by
  obtain ⟨hne, hword, hplain⟩ := safeResetIdentifier_spec hcharset
  obtain ⟨hne', hword', hplain'⟩ := safeResetIdentifier_spec hcollation
  constructor
  · have hnil : (ResetCommand.setNames charset collation).text =
        text "SET NAMES " ++ charset ++ text " COLLATE " ++ collation ++ [] := (List.append_nil _).symm
    rw [hnil]
    have hnothing : ∀ x ∈ pieces [], x = .content := fun x hx => absurd hx List.not_mem_nil
    refine statements_plain ?_ ⟨.chr 'S', by simp [text], by decide⟩ hnothing
    have hset : ∀ c ∈ text "SET NAMES ", isPlain c = true := by decide
    have hcollate : ∀ c ∈ text " COLLATE ", isPlain c = true := by decide
    simp only [List.forall_mem_append]
    exact ⟨⟨⟨hset, hplain⟩, hcollate⟩, hplain'⟩
  · have hassoc : (ResetCommand.setNames charset collation).text =
        text "SET" ++ .chr ' ' :: (text "NAMES" ++ .chr ' ' :: (charset ++ .chr ' ' :: (text "COLLATE" ++ .chr ' ' ::
          (collation ++ [])))) := by
      rw [List.append_nil]
      change text "SET NAMES " ++ charset ++ text " COLLATE " ++ collation = _
      simp only [List.append_assoc]
      rfl
    rw [hassoc, atoms_word_blank (by decide) (by decide), atoms_word_blank (by decide) (by decide),
      atoms_word_blank hne hword, atoms_word_blank (by decide) (by decide),
      atoms_word (t := []) hne' hword' fun c hc => absurd hc (Option.not_mem_none c)]
    rfl

theorem isolation_denotes {level : Text} (h : level ∈ isolationLevels) : (ResetCommand.isolation level).Denotes := by
  revert level
  decide +kernel

theorem resetIsolation_ok {value level : Text} (h : resetIsolation value = .ok level) : level ∈ isolationLevels := by
  unfold resetIsolation at h
  split_ifs at h with hmem
  cases h
  exact hmem

/-! ## All commands -/

/-- Every command of a reset is one statement and denotes the baseline exactly when the baseline can be quoted. -/
theorem reset_commands_denote_iff {baseline : Metadata} {commands : List ResetCommand}
    (h : Sends baseline commands) : (∀ command ∈ commands, command.Denotes) ↔ Quotable baseline := by
  obtain ⟨hisolation, hcharset, hcollation⟩ := h
  have hrollback : ResetCommand.rollback.Denotes := by decide +kernel
  have hautocommit : ResetCommand.autocommit.Denotes := by decide +kernel
  have hreadWrite : ResetCommand.readWrite.Denotes := by decide +kernel
  have hlevel := isolation_denotes (resetIsolation_ok hisolation)
  have hnames := setNames_denotes hcharset hcollation
  have huse : (∀ command ∈ if baseline.database ≠ [] then [ResetCommand.useDatabase baseline.database] else [],
      command.Denotes) ↔ baseline.database.all permitted = true := by
    split_ifs with hdatabase
    · rw [List.forall_mem_singleton, useDatabase_denotes_iff]
    · rw [not_not.1 hdatabase]
      exact iff_of_true nofun rfl
  rw [resetCommands, List.forall_mem_append, List.forall_mem_append, huse]
  simp only [List.forall_mem_cons, List.not_mem_nil, false_imp_iff, implies_true, and_true,
    timeZone_denotes_iff, sqlMode_denotes_iff, hrollback, hautocommit, hnames, hlevel, hreadWrite, true_and]
  exact Iff.rfl

/-- A baseline with quotes, backquotes and an escaped wildcard. -/
def quotableBaseline : Metadata where
  database := text "a`b"
  characterSet := text "utf8mb4"
  collation := text "utf8mb4_0900_ai_ci"
  sqlMode := text "it's"
  timeZone := text "\\%"
  transactionIsolation := text "REPEATABLE-READ"

theorem reset_commands_denote_iff_quotable : Sends quotableBaseline (resetCommands quotableBaseline
      (text "REPEATABLE READ")) ∧
    ∀ command ∈ resetCommands quotableBaseline (text "REPEATABLE READ"), command.Denotes := by
  have hsends : Sends quotableBaseline (resetCommands quotableBaseline (text "REPEATABLE READ")) :=
    .intro (by decide +kernel) (by decide) (by decide)
  exact ⟨hsends, (reset_commands_denote_iff hsends).2 (by decide)⟩

/-- A baseline whose time zone ends its own string. -/
def escapingBaseline : Metadata := { quotableBaseline with timeZone := text "\\';DO 0#" }

/-- The string is closed by the quote behind the escaped one, and the rest of the time zone is a statement. -/
theorem reset_commands_misread :
    Sends escapingBaseline (resetCommands escapingBaseline (text "REPEATABLE READ")) ∧
      .timeZone escapingBaseline.timeZone ∈ resetCommands escapingBaseline (text "REPEATABLE READ") ∧
      statements (ResetCommand.timeZone escapingBaseline.timeZone).text = 2 ∧
      Sql.atoms (ResetCommand.timeZone escapingBaseline.timeZone).text =
        some [keyword (text "SET"), keyword (text "SESSION"), keyword (text "time_zone"), .other (.symbol (.chr '=')),
          .string (text "'"), .other (.symbol (.chr ';')), keyword (text "DO"), keyword (text "0")] :=
  ⟨.intro (by decide +kernel) (by decide) (by decide), by decide, by decide +kernel, by decide +kernel⟩

end Accelerator.Gateway
