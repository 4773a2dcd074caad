/-
`engine.ClassifySQL`: the conservative SQL classifier of the pooled path. A query is trimmed, refused
when it holds more than one statement, freed of one trailing semicolon and of leading comments, and
then classified by its first word and by tests on its upper-cased text.
-/
import Accelerator.Strings.Basic

namespace Accelerator.Engine

open Strings

/-! ## Statements -/

inductive StatementKind where
  | empty | read | write | ddl | begin | commit | rollback | savepoint | autocommitOn | autocommitOff
  | setNames | useDatabase | warningCount | unsupported
  deriving DecidableEq, Repr

structure Statement where
  kind : StatementKind
  sql : Text
  reason : Text := []
  deriving DecidableEq, Repr

/-! ## Comments and semicolons -/

/-- The white space `stripLeadingComments` accepts after a double dash. -/
def dashSpace : Option Sym → Bool
  | some (.chr c) => c = ' ' || c = '\t' || c = '\r' || c = '\n'
  | _ => false

/-- The loop of `stripLeadingComments`; every round removes at least one element. -/
def stripCommentsLoop : Nat → Text → Text
  | 0, value => value
  | fuel + 1, value =>
    if value = [] then value
    else if hasPrefix value (text "/*") then
      match after (text "*/") (value.drop 2) with
      | none => []
      | some rest => stripCommentsLoop fuel (trimSpace rest)
    else if hasPrefix value (text "#") then
      match after (text "\n") value with
      | none => []
      | some rest => stripCommentsLoop fuel (trimSpace rest)
    else if hasPrefix value (text "--") && (value.length == 2 || dashSpace (value.drop 2).head?) then
      match after (text "\n") value with
      | none => []
      | some rest => stripCommentsLoop fuel (trimSpace rest)
    else value

def stripLeadingComments (query : Text) : Text :=
  let value := trimSpace query
  stripCommentsLoop value.length value

/-- The loop of `hasMultipleStatements`: the open quote, and whether the next element is escaped. -/
def scanStatements : Option Char → Bool → Text → Bool
  | _, _, [] => false
  | some q, true, _ :: rest => scanStatements (some q) false rest
  | some q, false, c :: rest =>
    if c = .chr '\\' ∧ q ≠ '`' then scanStatements (some q) true rest
    else if c = .chr q then scanStatements none false rest
    else scanStatements (some q) false rest
  | none, escaped, c :: rest =>
    if c = .chr '\'' then scanStatements (some '\'') escaped rest
    else if c = .chr '"' then scanStatements (some '"') escaped rest
    else if c = .chr '`' then scanStatements (some '`') escaped rest
    else if c = .chr ';' ∧ stripLeadingComments rest ≠ [] then true
    else scanStatements none escaped rest

def hasMultipleStatements (query : Text) : Bool := scanStatements none false query

/-! ## Reads -/

def unsafeFragments : List Text :=
  [text "GET_LOCK(", text "RELEASE_LOCK(", text "IS_FREE_LOCK(", text "IS_USED_LOCK(",
   text "LAST_INSERT_ID(", text "FOUND_ROWS(", text "ROW_COUNT(", text "CONNECTION_ID(",
   text "SQL_CALC_FOUND_ROWS", text " INTO OUTFILE", text " INTO DUMPFILE"]

def unsafeReadReason (upper : Text) : Text :=
  if unsafeFragments.any (contains upper) then
    text "connection-state or side-effect read is unsafe for a shared pool"
  else if contains (replaceAll upper (text "@@") []) (text "@") then
    text "user variables are unsafe for a shared pool"
  else if hasPrefix upper (text "SHOW WARNINGS") || hasPrefix upper (text "SHOW ERRORS") ||
      hasPrefix upper (text "SHOW STATUS") || hasPrefix upper (text "SHOW SESSION") then
    text "connection-local diagnostics are unsafe for a shared pool"
  else []

/-! ## The switch on the first word -/

def readWords : List Text := [text "SELECT", text "SHOW", text "DESC", text "DESCRIBE", text "EXPLAIN"]
def writeWords : List Text := [text "INSERT", text "UPDATE", text "DELETE", text "REPLACE"]
def ddlWords : List Text := [text "CREATE", text "ALTER", text "DROP", text "TRUNCATE", text "RENAME"]
def statefulWords : List Text :=
  [text "CALL", text "LOAD", text "LOCK", text "UNLOCK", text "PREPARE", text "EXECUTE",
   text "DEALLOCATE", text "DO", text "HANDLER", text "ANALYZE", text "OPTIMIZE", text "CHECK",
   text "REPAIR", text "RESET", text "KILL"]

/-- The word at position `i` of the fields, when there is one. -/
def isWord (words : List Text) (i : Nat) (w : String) : Bool := words[i]? == some (text w)

/-- The text of a `SET` with blanks removed and its scope prefix cut. -/
def compactSet (upper : Text) : Text :=
  let compact := upper.filter fun c => !([.chr ' ', .chr '\t', .chr '\r', .chr '\n'] : Text).contains c
  let compact := trimPrefix compact (text "SETSESSION")
  let compact := trimPrefix compact (text "SET@@SESSION.")
  let compact := trimPrefix compact (text "SET@@")
  trimPrefix compact (text "SET")

def classifySet (trimmed upper : Text) (words : List Text) : Statement :=
  let compact := compactSet upper
  if compact = text "AUTOCOMMIT=1" ∨ compact = text "AUTOCOMMIT=ON" then
    { kind := .autocommitOn, sql := trimmed }
  else if compact = text "AUTOCOMMIT=0" ∨ compact = text "AUTOCOMMIT=OFF" then
    { kind := .autocommitOff, sql := trimmed }
  else if words.length = 3 ∧ isWord words 1 "NAMES" ∧
      (words[2]?.map fun w => trim w (text "'\"")) = some (text "UTF8MB4") then
    { kind := .setNames, sql := trimmed }
  else if words.length > 1 ∧ isWord words 1 "NAMES" then
    { kind := .unsupported, sql := trimmed, reason := text "only SET NAMES utf8mb4 is safe in pooled mode" }
  else
    { kind := .unsupported, sql := trimmed, reason := text "session-changing SET is unsafe for a shared pool" }

/-- A transaction word that stands alone or before `WORK`. -/
def bareOrWork (words : List Text) : Bool :=
  words.length == 1 || (words.length == 2 && isWord words 1 "WORK")

/-- The switch of `ClassifySQL` on the first of `words`. -/
def classifyWords (trimmed upper : Text) (words : List Text) (first : Text) : Statement :=
  if first ∈ readWords then
    if join words (text " ") = text "SHOW COUNT(*) WARNINGS" then { kind := .warningCount, sql := trimmed }
    else if unsafeReadReason upper ≠ [] then
      { kind := .unsupported, sql := trimmed, reason := unsafeReadReason upper }
    else { kind := .read, sql := trimmed }
  else if first ∈ writeWords then
    if contains upper (text " RETURNING") then
      { kind := .unsupported, sql := trimmed,
        reason := text "DML RETURNING result sets are not supported in pooled mode" }
    else { kind := .write, sql := trimmed }
  else if first ∈ ddlWords then
    if words.length > 1 ∧ isWord words 1 "TEMPORARY" then
      { kind := .unsupported, sql := trimmed, reason := text "temporary objects are unsafe for a shared pool" }
    else { kind := .ddl, sql := trimmed }
  else if first = text "BEGIN" then
    if bareOrWork words then { kind := .begin, sql := trimmed }
    else { kind := .unsupported, sql := trimmed,
           reason := text "transaction modifiers are not supported in pooled mode" }
  else if first = text "START" then
    if words.length = 2 ∧ isWord words 1 "TRANSACTION" then { kind := .begin, sql := trimmed }
    else { kind := .unsupported, sql := trimmed,
           reason := text "transaction modifiers are not supported in pooled mode" }
  else if first = text "COMMIT" then
    if bareOrWork words then { kind := .commit, sql := trimmed }
    else { kind := .unsupported, sql := trimmed,
           reason := text "COMMIT modifiers are not supported in pooled mode" }
  else if first = text "ROLLBACK" then
    if words.length > 1 ∧ (isWord words 1 "TO" ∨
        (isWord words 1 "WORK" ∧ words.length > 2 ∧ isWord words 2 "TO")) then
      { kind := .savepoint, sql := trimmed }
    else if bareOrWork words then { kind := .rollback, sql := trimmed }
    else { kind := .unsupported, sql := trimmed,
           reason := text "ROLLBACK modifiers are not supported in pooled mode" }
  else if first = text "SAVEPOINT" ∨ first = text "RELEASE" then { kind := .savepoint, sql := trimmed }
  else if first = text "USE" then { kind := .useDatabase, sql := trimmed }
  else if first = text "SET" then classifySet trimmed upper words
  else if first = text "WITH" then
    { kind := .unsupported, sql := trimmed,
      reason := text "common table expressions are not classified in this build" }
  else if first ∈ statefulWords then
    { kind := .unsupported, sql := trimmed,
      reason := text "stateful or multi-result statement is not supported in pooled mode" }
  else
    { kind := .unsupported, sql := trimmed, reason := text "statement type is not supported in pooled mode" }

/-- The statement text after trimming and the removal of one trailing semicolon. -/
def trimStatement (query : Text) : Text := trimSpace (trimSuffix (trimSpace query) (text ";"))

def classifySQL (query : Text) : Statement :=
  if trimSpace query = [] then { kind := .empty, sql := query }
  else if hasMultipleStatements (trimSpace query) then
    { kind := .unsupported, sql := query, reason := text "multiple statements are not enabled" }
  else
    let trimmed := trimStatement query
    let visible := stripLeadingComments trimmed
    if visible = [] then { kind := .empty, sql := query }
    else
      let upper := toUpper visible
      match fields upper with
      | [] => { kind := .empty, sql := query }
      | first :: more => classifyWords trimmed upper (first :: more) first

example : (classifySQL (text "/* trace */ SHOW TABLES")).kind = .read := by decide +kernel
example : (classifySQL (text "SELECT 1; SELECT 2")).kind = .unsupported := by decide +kernel
example : (classifySQL (text "SET @@session.autocommit = 0")).kind = .autocommitOff := by decide +kernel

end Accelerator.Engine
