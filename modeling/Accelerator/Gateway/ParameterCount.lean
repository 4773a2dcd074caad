/-
The number of parameters a prepare announces. `countPreparedParameters` matches quotes and knows no comments;
the reply announces its number and defines as many parameters. Where no comment holds a quote, the number is
that of the server's placeholders exactly if no comment holds a mark either.
-/
import Accelerator.Gateway.Turns
import Accelerator.Engine.Resend
import Accelerator.Sql.Placeholders
import Accelerator.Strings.Utf8

namespace Accelerator.Gateway

open Interact Strings Engine Upstream Session
open Sql (Quoting marks mark placeholders isQuote)

/-! ## Bytes and characters -/

/-- The scanner's variables: the byte of the open quote, and whether the next byte is escaped. -/
def quoteByte : Quoting → Option UInt8 × Bool
  | none => (none, false)
  | some (q, escaped) => (q.bytes.head?, escaped)

/-- The strings are those that quotes open. -/
def Quoting.Opened (s : Quoting) : Prop := ∀ q escaped, s = some (q, escaped) → isQuote q

section Bytes

variable {s : Quoting} {c : Sym} {t : Text}

theorem Quoting.Opened.next (h : Quoting.Opened s) (c : Sym) : Quoting.Opened (s.next c) := by
  intro q escaped hq
  rcases s with _ | ⟨q', _ | _⟩
  · simp only [Quoting.next] at hq
    split_ifs at hq with hc
    cases hq
    exact hc
  · simp only [Quoting.next] at hq
    split_ifs at hq <;> cases hq <;> exact h _ _ rfl
  · cases hq
    exact h _ _ rfl

/-- Bytes outside ASCII open, close and count nothing. -/
theorem countParametersFrom_high {quote : Option UInt8} {bs rest : Bytes} (hq : ∀ q ∈ quote, q.toNat < 0x80)
    (hb : ∀ b ∈ bs, 0x80 ≤ b.toNat) :
    countParametersFrom quote false (bs ++ rest) = countParametersFrom quote false rest := by
  induction bs with
  | nil => rfl
  | cons b bs ih =>
    have ih := ih fun x hx => hb x (List.mem_cons_of_mem b hx)
    have hb := hb b List.mem_cons_self
    have hne : ∀ x : UInt8, x.toNat < 0x80 → b ≠ x := by
      rintro x hx rfl
      omega
    cases quote with
    | none =>
      rw [List.cons_append, countParametersFrom, if_neg, if_neg (hne _ (by decide)), ih]
      rintro (h | h | h)
      · exact hne _ (by decide) h
      · exact hne _ (by decide) h
      · exact hne _ (by decide) h
    | some q =>
      rw [List.cons_append, countParametersFrom, if_neg fun h => hne _ (by decide) h.1, if_neg (hne _ (hq q rfl)), ih]

theorem isQuote_ascii (h : isQuote c) : ∃ q : Char, c = .chr q ∧ q.toNat < 0x80 := by
  rcases h with rfl | rfl | rfl <;> exact ⟨_, rfl, by decide⟩

theorem quoteByte_ascii (hs : Quoting.Opened s) : ∀ b ∈ (quoteByte s).1, b.toNat < 0x80 := by
  rcases s with _ | ⟨q, escaped⟩
  · rintro b ⟨⟩
  · obtain ⟨q, rfl, hq⟩ := isQuote_ascii (hs q escaped rfl)
    intro b hb
    have hb : b ∈ (String.utf8EncodeChar q).head? := hb
    rw [utf8EncodeChar_ascii hq] at hb
    cases hb
    rw [UInt8.toNat_ofNat', Nat.mod_eq_of_lt (show q.toNat < 2 ^ 8 by omega)]
    exact hq

/-- One ASCII character. -/
theorem countParametersFrom_ascii (hs : Quoting.Opened s) {c : Char} (hc : c.toNat < 0x80) (rest : Bytes) :
    countParametersFrom (quoteByte s).1 (quoteByte s).2 (UInt8.ofNat c.toNat :: rest) =
      (if s = none ∧ Sym.chr c = mark then 1 else 0) +
        countParametersFrom (quoteByte (s.next (.chr c))).1 (quoteByte (s.next (.chr c))).2 rest := by
  have hopen : ∀ {q : Char} {escaped : Bool}, q.toNat < 0x80 →
      quoteByte (some (.chr q, escaped)) = (some (UInt8.ofNat q.toNat), escaped) := by
    intro q escaped hq
    show ((String.utf8EncodeChar q).head?, escaped) = _
    rw [utf8EncodeChar_ascii hq]
    rfl
  rcases s with _ | ⟨q, escaped⟩
  · have h₁ : UInt8.ofNat c.toNat = 0x27 ↔ c = '\'' := asciiByte_inj (d := '\'') hc (by decide)
    have h₂ : UInt8.ofNat c.toNat = 0x22 ↔ c = '"' := asciiByte_inj (d := '"') hc (by decide)
    have h₃ : UInt8.ofNat c.toNat = 0x60 ↔ c = '`' := asciiByte_inj (d := '`') hc (by decide)
    have h₄ : UInt8.ofNat c.toNat = 0x3f ↔ c = '?' := asciiByte_inj (d := '?') hc (by decide)
    have hquote : isQuote (.chr c) ↔ c = '\'' ∨ c = '"' ∨ c = '`' := by simp [isQuote]
    have hnone : quoteByte none = (none, false) := rfl
    simp only [hnone, countParametersFrom, h₁, h₂, h₃, h₄, Quoting.next, hquote, true_and, mark, Sym.chr.injEq]
    split_ifs with hq hm hm
    · rcases hq with rfl | rfl | rfl <;> cases hm
    · rw [Nat.zero_add, hopen hc]
    · rw [hnone, Nat.add_comm]
    · rw [hnone, Nat.zero_add]
  · obtain ⟨q, rfl, hq⟩ := isQuote_ascii (hs q escaped rfl)
    have h₅ : UInt8.ofNat c.toNat = 0x5c ↔ c = '\\' := asciiByte_inj (d := '\\') hc (by decide)
    have h₆ : UInt8.ofNat q.toNat = 0x60 ↔ q = '`' := asciiByte_inj (d := '`') hq (by decide)
    rw [hopen hq, if_neg (by simp), Nat.zero_add]
    cases escaped with
    | true => rw [countParametersFrom, Quoting.next, hopen hq]
    | false =>
      simp only [countParametersFrom, h₅, h₆, asciiByte_inj hc hq, Quoting.next, Sym.chr.injEq, ne_eq]
      split_ifs
      · rw [hopen hq]
      · rfl
      · rw [hopen hq]

/-- One character outside ASCII. -/
theorem countParametersFrom_other (hs : Quoting.Opened s) (hc : c.Proper) (ha : c.isAscii = false) (rest : Bytes) :
    countParametersFrom (quoteByte s).1 (quoteByte s).2 (c.bytes ++ rest) =
      countParametersFrom (quoteByte (s.next c)).1 (quoteByte (s.next c)).2 rest := by
  obtain ⟨hne, hhigh⟩ := Sym.bytes_high hc ha
  have hq := quoteByte_ascii hs
  have hother : ∀ d : Char, d.toNat < 0x80 → c ≠ .chr d := by
    rintro d hd rfl
    exact absurd hd (of_decide_eq_false ha)
  rcases s with _ | ⟨q, escaped⟩
  · have hnext : Quoting.next none c = none := by
      refine if_neg fun h => ?_
      obtain ⟨d, rfl, hd⟩ := isQuote_ascii h
      exact hother d hd rfl
    rw [hnext]
    exact countParametersFrom_high hq hhigh
  · obtain ⟨d, rfl, hd⟩ := isQuote_ascii (hs q escaped rfl)
    cases escaped with
    | false =>
      have hnext : Quoting.next (some (.chr d, false)) c = some (.chr d, false) := by
        rw [Quoting.next, if_neg fun h => hother _ (by decide) h.1, if_neg (hother d hd)]
      rw [hnext]
      exact countParametersFrom_high hq hhigh
    | true =>
      obtain ⟨b, bs, hbytes⟩ := List.exists_cons_of_ne_nil hne
      rw [hbytes] at hhigh ⊢
      obtain ⟨x, hx⟩ : ∃ x, (Sym.chr d).bytes.head? = some x :=
        ⟨_, congrArg List.head? (utf8EncodeChar_ascii hd)⟩
      have hq : ∀ y ∈ some x, y.toNat < 0x80 := by
        rw [← hx]
        exact hq
      simp only [quoteByte, Quoting.next, hx, List.cons_append, countParametersFrom]
      exact countParametersFrom_high hq fun y hy => hhigh y (List.mem_cons_of_mem b hy)

theorem countParametersFrom_nil (quote : Option UInt8) (escaped : Bool) : countParametersFrom quote escaped [] = 0 := by
  cases quote <;> cases escaped <;> rfl

theorem countParametersFrom_text (hs : Quoting.Opened s) (ht : ∀ c ∈ t, c.Proper) :
    countParametersFrom (quoteByte s).1 (quoteByte s).2 (toBytes t) = marks s t := by
  induction t generalizing s with
  | nil => exact countParametersFrom_nil _ _
  | cons c t ih =>
    have ih := ih (hs.next c) fun d hd => ht d (List.mem_cons_of_mem c hd)
    have hbytes : toBytes (c :: t) = c.bytes ++ toBytes t := rfl
    rw [marks, ← ih, hbytes]
    by_cases ha : c.isAscii = true
    · cases c with
      | bad b => cases ha
      | chr c =>
        have hc : c.toNat < 0x80 := of_decide_eq_true ha
        have hbyte : (Sym.chr c).bytes = [UInt8.ofNat c.toNat] := utf8EncodeChar_ascii hc
        rw [hbyte, List.singleton_append, countParametersFrom_ascii hs hc]
    · have ha : c.isAscii = false := Bool.eq_false_iff.2 ha
      rw [countParametersFrom_other hs (ht c List.mem_cons_self) ha, if_neg, Nat.zero_add]
      rintro ⟨-, rfl⟩
      cases ha

/-- The scanner counts the marks outside quotes. -/
theorem countPreparedParameters_eq (ht : ∀ c ∈ t, c.Proper) : countPreparedParameters t = marks none t :=
  countParametersFrom_text (s := none) (by rintro _ _ ⟨⟩) ht

end Bytes

theorem trimStatement_subset (q : Text) : trimStatement q ⊆ q := by
  have htrim : ∀ t : Text, trimSpace t ⊆ t := fun t =>
    List.Subset.trans (List.rdropWhile_prefix _ _).subset (List.dropWhile_suffix _).subset
  refine List.Subset.trans (htrim _) (List.Subset.trans ?_ (htrim q))
  unfold trimSuffix
  split
  · exact List.take_subset _ _
  · exact List.Subset.refl _

/-- The statement of a query that a client sends, as far as it is forwarded. -/
theorem proper_sql {b : Bytes} (he : (classifySQL (ofBytes b)).kind ≠ .empty)
    (hu : (classifySQL (ofBytes b)).kind ≠ .unsupported) : ∀ c ∈ (classifySQL (ofBytes b)).sql, c.Proper := by
  obtain ⟨first, more, -, hq⟩ := classifySQL_words he hu
  intro c hc
  rw [hq, classifyWords_sql] at hc
  exact proper_ofBytes b c (trimStatement_subset _ hc)

/-! ## The reply -/

/-- The packets after a successful prepare of a statement with `n` parameters. -/
def prepareReply (id : UInt32) (n : Nat) (status : UInt16) : List Packet :=
  .prepareOK id 0 (n % 65536) 0 :: List.replicate n (.columnDefinition parameterDefinition) ++
    if n > 0 then [.eof status 0] else []

/-- A prepare was answered with an error, or its statement is one that may be prepared and the reply is that
for its parameters. -/
def Announces (q : Text) (ps : List Packet) : Prop :=
  (∃ p, ps = [p] ∧ p.isErr = true) ∨
    ((classifySQL q).kind ≠ .empty ∧ (classifySQL q).kind ≠ .unsupported) ∧
      ∃ id status, ps = prepareReply id (countPreparedParameters (classifySQL q).sql) status

section Reply

variable {svc : Service} {frames : Packet → Nat} {e : Exchange} {q : Text}

/-- The current exchange of a prepare. -/
def Announced (q : Text) (r : Except GoError Unit) (e : Exchange) : Prop := r = .ok () → Announces q e.packets

theorem announced_error (he : e.sent = []) (r : Except GoError Unit) (sequence : UInt8) (code : Nat)
    (state message : Bytes) : Announced q r (e.push sequence (.err code state message)) := by
  intro _
  rw [Exchange.push, Exchange.packets_pushAll, Exchange.packets_of_sent he]
  exact .inl ⟨_, rfl, rfl⟩

theorem fail_announces {x : GoError} (he : e.Unsaid true) (hx : e.executed = false) :
    Speaks svc frames (writeSQLError x) e (Announced q) :=
  writeSQLErrorAt_speaks he.first he.audible (Exchange.unexecuted hx) fun r _ _ _ => announced_error he.sent r _ _ _ _

theorem refuse_announces {code : Nat} {state message : Bytes} (he : e.Unsaid true) (hx : e.executed = false) :
    Speaks svc frames (writeError 1 code state message) e (Announced q) :=
  writeError_speaks he.first he.audible (Exchange.unexecuted hx) fun r _ => announced_error he.sent r _ _ _ _

theorem replyPrepared_announces {id : UInt32} (he : e.Unsaid true) (hx : e.executed = false)
    (hk : (classifySQL q).kind ≠ .empty ∧ (classifySQL q).kind ≠ .unsupported) :
    Speaks svc frames (replyPrepared id (countPreparedParameters (classifySQL q).sql)) e (Announced q) := by
  refine (replyPrepared_writes (he.sending hx)).mono fun r e' h hr => ?_
  obtain ⟨s, l, rfl, hl⟩ := h hr
  refine .inr ⟨hk, id, s.status, ?_⟩
  rw [Exchange.packets_pushAll, Exchange.packets_of_sent he.sent, List.nil_append, hl, prepareReply]
  simp only [List.map_append, List.map_cons, List.map_replicate]
  split_ifs <;> rfl

theorem registerPrepared_announces {st : Stmt} (he : e.Unsaid true) (hx : e.executed = false)
    (hk : (classifySQL q).kind ≠ .empty ∧ (classifySQL q).kind ≠ .unsupported) :
    Speaks svc frames (registerPrepared (classifySQL q).sql st) e (Announced q) := by
  intro s past
  unfold registerPrepared
  simp only [Prog.wp_bind, Prog.wp_modify, Prog.wp_read, Logical.addPrepared, if_neg (nextID_ne_zero _)]
  by_cases hin : nextID s.nextPreparedID ∈ s.state.prepared
  · rw [if_pos hin]
    refine speaks_call_quiet (o := .stmtClose st) (fun _ _ => rfl) rfl (fun _ => speaks_modify ?_) _ past
    exact fail_announces he hx
  · rw [if_neg hin]
    exact speaks_modify (replyPrepared_announces he hx hk) _ past

/-- COM_STMT_PREPARE. -/
theorem prepare_announces (he : e.Unsaid true) (hx : e.executed = false) :
    Speaks svc frames (prepare svc q) e (Announced q) := by
  intro s past
  refine prepare_talks he hx (fun s _ h => .of_mute h s past) (fun s => .prepare s past)
    (fun _ _ _ s' _ => refuse_announces he hx s' past) fun hkind st s' _ => ?_
  have hk : (classifySQL q).kind ≠ .empty ∧ (classifySQL q).kind ≠ .unsupported := by
    constructor <;> intro h <;> rw [h] at hkind <;> revert hkind <;> decide
  exact registerPrepared_announces (e := e.prepare s' _ (.ok st)) (he.of_eq rfl rfl) hx hk s' past

end Reply

/-! ## Whole dialogues -/

/-- Every prepare of a dialogue was answered so. -/
def AllAnnounce (g : Talk) : Prop :=
  ∀ e ∈ g, ∀ b, e.payload = commandStmtPrepare :: b → Announces (ofBytes b) e.packets

section Dialogue

variable {svc : Service} {frames : Packet → Nat}

theorem dispatch_announces (svc : Service) (command : UInt8) (rest : Bytes) (s : ClientSession) (past : Talk) :
    (dispatch svc command rest).wp (talking frames) (fun _ _ _ => True)
      (Becomes (Exchange.begin s (command :: rest)) past fun r e => r = .ok () →
        ∀ b, e.payload = commandStmtPrepare :: b → Announces (ofBytes b) e.packets)
      s (Exchange.begin s (command :: rest) :: past) := by
  by_cases hc : command = commandStmtPrepare
  · subst hc
    have he : (Exchange.begin s (commandStmtPrepare :: rest)).Unsaid true := ⟨rfl, rfl, rfl⟩
    have hprepare := Prog.wp_permit (@prepare_announces svc frames _ (ofBytes rest) he rfl s past) fun _ _ _ _ => trivial
    refine Prog.wp_mono (show (dispatch svc commandStmtPrepare rest).wp _ _ _ _ _ from hprepare) ?_
    rintro r s' _ ⟨e', rfl, hrequest, hannounced⟩
    refine ⟨e', rfl, hrequest, fun hr b hb => ?_⟩
    have hpayload : e'.payload = commandStmtPrepare :: rest := (Prod.mk.inj hrequest).1
    cases (List.cons.inj (hpayload.symm.trans hb)).2
    exact hannounced hr
  · refine Prog.wp_mono (Prog.wp_permit (dispatch_speaks svc command rest s past) fun _ _ _ _ => trivial) ?_
    rintro r s' _ ⟨e', rfl, hrequest, -⟩
    refine ⟨e', rfl, hrequest, fun _ b hb => ?_⟩
    have hpayload : e'.payload = command :: rest := (Prod.mk.inj hrequest).1
    exact absurd (List.cons.inj (hpayload.symm.trans hb)).1 hc

variable {c : Conf ClientSession Op Res Note Talk}

theorem dialogue_announces (h : InDialogue svc frames c) (hi : c.isIdle = true) : AllAnnounce c.env := by
  refine dialogue_keeps (J := fun _ g => AllAnnounce g) (List.forall_mem_nil _) (fun s g hg command rest => ?_) h hi
  refine Prog.wp_mono (dispatch_announces svc command rest s g) ?_
  rintro r s' _ ⟨e, rfl, -, he⟩ hr
  exact List.forall_mem_cons.2 ⟨he hr, hg⟩

/-- The definition of a parameter or a column. -/
def Packet.isDefinition : Packet → Bool
  | .columnDefinition _ => true
  | _ => false

theorem definitions_prepareReply (id : UInt32) (n : Nat) (status : UInt16) :
    (prepareReply id n status).countP Packet.isDefinition = n := by
  have hdefinitions : (List.replicate n (Packet.columnDefinition parameterDefinition)).countP Packet.isDefinition = n :=
    List.countP_replicate.trans (if_pos rfl)
  have hend : (if n > 0 then [Packet.eof status 0] else []).countP Packet.isDefinition = 0 := by
    split <;> rfl
  rw [prepareReply, List.cons_append, List.countP_cons, List.countP_append, hdefinitions, hend]
  rfl

section Accepted

variable (h : InDialogue svc frames c) (hi : c.isIdle = true) {e : Exchange} (he : e ∈ c.env) {b : Bytes}
  (hb : e.payload = commandStmtPrepare :: b) {id : UInt32} {columns parameters warnings : Nat} {rest : List Packet}
  (hok : e.packets = .prepareOK id columns parameters warnings :: rest)
include h hi he hb hok

/-- The reply to a prepare that was accepted. -/
theorem accepted_prepare :
    (∀ c ∈ (classifySQL (ofBytes b)).sql, c.Proper) ∧
      parameters = countPreparedParameters (classifySQL (ofBytes b)).sql % 65536 ∧
      e.packets.countP Packet.isDefinition = countPreparedParameters (classifySQL (ofBytes b)).sql := by
  rcases dialogue_announces h hi e he b hb with ⟨p, hp, herr⟩ | ⟨hk, id', status, hreply⟩
  · rw [hok] at hp
    cases hp
    cases herr
  refine ⟨proper_sql hk.1 hk.2, ?_, by rw [hreply, definitions_prepareReply]⟩
  have hhead := hok.symm.trans hreply
  rw [prepareReply, List.cons_append] at hhead
  exact (Packet.prepareOK.inj (List.cons.inj hhead).1).2.2.1

/-- A prepare that was accepted, of a statement whose comments hold no quotes, counts and announces the placeholders
of its statement and defines as many parameters exactly if the comments hold no marks. Upstream accepts no more
placeholders than the reply can count. -/
theorem prepare_counts_placeholders_iff (hupstream : placeholders (classifySQL (ofBytes b)).sql ≤ 65535)
    (hquotes : ∀ r ∈ Sql.stretches (classifySQL (ofBytes b)).sql, r.lexeme = none → ∀ c ∈ r.read, ¬isQuote c) :
    (countPreparedParameters (classifySQL (ofBytes b)).sql = placeholders (classifySQL (ofBytes b)).sql ∧
      parameters = placeholders (classifySQL (ofBytes b)).sql ∧
      e.packets.countP Packet.isDefinition = placeholders (classifySQL (ofBytes b)).sql) ↔
    ∀ r ∈ Sql.stretches (classifySQL (ofBytes b)).sql, r.lexeme = none → mark ∉ r.read := by
  obtain ⟨hproper, hannounced, hdefined⟩ := accepted_prepare h hi he hb hok
  rw [← Sql.marks_eq_placeholders_iff hquotes, ← countPreparedParameters_eq hproper, hdefined, hannounced]
  refine ⟨fun hall => hall.1, fun hcount => ⟨hcount, ?_, hcount⟩⟩
  rw [hcount, Nat.mod_eq_of_lt (by omega)]

/-- In particular if no comment of the statement holds a mark or a quote. -/
theorem prepare_counts_plain (hupstream : placeholders (classifySQL (ofBytes b)).sql ≤ 65535)
    (hplain : ∀ r ∈ Sql.stretches (classifySQL (ofBytes b)).sql, r.lexeme = none →
      mark ∉ r.read ∧ ∀ c ∈ r.read, ¬isQuote c) :
    parameters = placeholders (classifySQL (ofBytes b)).sql ∧
      e.packets.countP Packet.isDefinition = placeholders (classifySQL (ofBytes b)).sql := by
  obtain ⟨hproper, hannounced, hdefined⟩ := accepted_prepare h hi he hb hok
  have hcount := (Sql.marks_eq_placeholders_iff fun r hr hl => (hplain r hr hl).2).2 fun r hr hl => (hplain r hr hl).1
  rw [← countPreparedParameters_eq hproper] at hcount
  rw [hannounced, hdefined, hcount, Nat.mod_eq_of_lt (by omega)]
  exact ⟨rfl, rfl⟩

end Accepted

/-- One placeholder, in a statement with a comment that holds none. -/
theorem prepare_counts_placeholders_iff_one :
    ∃ e ∈ (dialogueOf (asks alone (comStmtPrepare "SELECT ? /* a */") 24)).env,
      e.packets.head? = some (.prepareOK 1 0 1 0) ∧ e.packets.countP Packet.isDefinition = 1 := by
  have hR := inDialogue_of (asks alone (comStmtPrepare "SELECT ? /* a */") 24)
  obtain ⟨e, he, hb, hhead⟩ : ∃ e ∈ (dialogueOf (asks alone (comStmtPrepare "SELECT ? /* a */") 24)).env,
      e.payload = commandStmtPrepare :: lit "SELECT ? /* a */" ∧ e.packets.head? = some (.prepareOK 1 0 1 0) := by
    decide +kernel
  obtain ⟨rest, hok⟩ := List.head?_eq_some_iff.1 hhead
  have hplaceholders : placeholders (classifySQL (ofBytes (lit "SELECT ? /* a */"))).sql = 1 := by decide +kernel
  have hall := (prepare_counts_placeholders_iff hR (by decide +kernel) he hb hok (by rw [hplaceholders]; decide)
    (by decide +kernel)).2 (by decide +kernel)
  rw [hplaceholders] at hall
  exact ⟨e, he, hhead, hall.2.2⟩

theorem prepare_counts_plain_two :
    ∃ e ∈ (dialogueOf (asks alone (comStmtPrepare "SELECT ?, '?', ? /* a */") 26)).env, ∃ id rest,
      e.packets = .prepareOK id 0 2 0 :: rest ∧ e.packets.countP Packet.isDefinition = 2 := by
  have hR := inDialogue_of (asks alone (comStmtPrepare "SELECT ?, '?', ? /* a */") 26)
  obtain ⟨e, he, hb, hhead⟩ : ∃ e ∈ (dialogueOf (asks alone (comStmtPrepare "SELECT ?, '?', ? /* a */") 26)).env,
      e.payload = commandStmtPrepare :: lit "SELECT ?, '?', ? /* a */" ∧ e.packets.head? = some (.prepareOK 1 0 2 0) := by
    decide +kernel
  obtain ⟨rest, hok⟩ := List.head?_eq_some_iff.1 hhead
  have hplaceholders : placeholders (classifySQL (ofBytes (lit "SELECT ?, '?', ? /* a */"))).sql = 2 := by decide +kernel
  have hall := prepare_counts_plain hR (by decide +kernel) he hb hok (by rw [hplaceholders]; decide) (by decide +kernel)
  rw [hplaceholders] at hall
  exact ⟨e, he, 1, rest, hok, hall.2⟩

/-- A mark in a comment is announced as a parameter, and one between two quotes in comments is not. -/
theorem comment_marks_counted :
    (∃ c, InDialogue sampleService (fun _ => 1) c ∧ c.isIdle = true ∧ ∃ e ∈ c.env,
      e.payload = comStmtPrepare "SELECT 1 /* ? */" ∧ e.packets.head? = some (.prepareOK 1 0 1 0) ∧
      e.packets.countP Packet.isDefinition = 1 ∧ placeholders (classifySQL (text "SELECT 1 /* ? */")).sql = 0) ∧
    ∃ c, InDialogue sampleService (fun _ => 1) c ∧ c.isIdle = true ∧ ∃ e ∈ c.env,
      e.payload = comStmtPrepare "SELECT /* ' */ ? /* ' */" ∧ e.packets.head? = some (.prepareOK 1 0 0 0) ∧
      e.packets.countP Packet.isDefinition = 0 ∧
      placeholders (classifySQL (text "SELECT /* ' */ ? /* ' */")).sql = 1 := by
  constructor
  · exact ⟨_, inDialogue_of (asks alone (comStmtPrepare "SELECT 1 /* ? */") 24), by decide +kernel⟩
  · exact ⟨_, inDialogue_of (asks alone (comStmtPrepare "SELECT /* ' */ ? /* ' */") 22), by decide +kernel⟩

end Dialogue

end Accelerator.Gateway
