import AegisPlatform.ControlPlane.Secrecy
import AegisPlatform.ControlPlane.Trail
import AegisPlatform.System.Cursor

/-!
# The pages of the ledger

A client reads the ledger of a tenant over HTTP: it asks for a page, and for the next one with the
cursor it was given, until it is given none.  Meanwhile appends go on.

* `Asking`, `pageOf?` — the request of the client, and what it reads off a response.
* `Following` — the client, beside the calls of the event store.
* `ledger_followed` — it has been given the body of every event of a first part of the history, in
  order and once each, and of the whole history with the last page.
-/

namespace AegisPlatform

open Fallible Effects Effects.Prog Transactions

/-! ## Bodies that can be read back -/

namespace WordCharacters

section

variable (W : WordCharacters)

theorem keys_redactDetails (d : Dict) : (redactDetails W d).map (·.1) = d.map (·.1) := by
  induction d with
  | nil => rfl
  | cons field rest ih =>
    obtain ⟨key, value⟩ := field
    rw [redactDetails]
    split <;> rw [List.map_cons, List.map_cons, ih]

mutual

/-- What is redacted is plain JSON if it was. -/
theorem plain_redactValue : ∀ {v : JsonValue}, v.isFinite = true → v.isDict = true →
    (redactValue W v).isFinite = true ∧ (redactValue W v).isDict = true
  | .null, _, _ => ⟨rfl, rfl⟩
  | .bool _, _, _ => ⟨rfl, rfl⟩
  | .int _, _, _ => ⟨rfl, rfl⟩
  | .float _, hfinite, _ => ⟨hfinite, rfl⟩
  | .str _, _, _ => ⟨rfl, rfl⟩
  | .list xs, hfinite, hdict => plain_redactValues hfinite hdict
  | .obj fields, hfinite, hdict => by
    rw [JsonValue.isDict, Bool.and_eq_true] at hdict
    obtain ⟨hkeys, hfields⟩ := hdict
    obtain ⟨hfinite', hfields'⟩ := plain_redactDetails hfinite hfields
    rw [redactValue]
    refine ⟨hfinite', ?_⟩
    rw [JsonValue.isDict, Bool.and_eq_true, keys_redactDetails]
    exact ⟨hkeys, hfields'⟩

theorem plain_redactValues : ∀ {xs : List JsonValue}, JsonValue.isFiniteList xs = true →
    JsonValue.isDictList xs = true → JsonValue.isFiniteList (redactValues W xs) = true ∧
      JsonValue.isDictList (redactValues W xs) = true
  | [], _, _ => ⟨rfl, rfl⟩
  | x :: xs, hfinite, hdict => by
    rw [JsonValue.isFiniteList, Bool.and_eq_true] at hfinite
    rw [JsonValue.isDictList, Bool.and_eq_true] at hdict
    obtain ⟨hx, hx'⟩ := plain_redactValue hfinite.1 hdict.1
    obtain ⟨hxs, hxs'⟩ := plain_redactValues hfinite.2 hdict.2
    rw [redactValues, JsonValue.isFiniteList, JsonValue.isDictList, hx, hx', hxs, hxs']
    exact ⟨rfl, rfl⟩

theorem plain_redactDetails : ∀ {d : Dict}, JsonValue.isFiniteFields d = true →
    JsonValue.isDictFields d = true → JsonValue.isFiniteFields (redactDetails W d) = true ∧
      JsonValue.isDictFields (redactDetails W d) = true
  | [], _, _ => ⟨rfl, rfl⟩
  | (key, v) :: rest, hfinite, hdict => by
    rw [JsonValue.isFiniteFields, Bool.and_eq_true] at hfinite
    rw [JsonValue.isDictFields, Bool.and_eq_true] at hdict
    obtain ⟨hv, hv'⟩ := plain_redactValue hfinite.1 hdict.1
    obtain ⟨hrest, hrest'⟩ := plain_redactDetails hfinite.2 hdict.2
    rw [redactDetails]
    split
    · rw [JsonValue.isFiniteFields, JsonValue.isDictFields, hrest, hrest']
      exact ⟨rfl, rfl⟩
    · rw [JsonValue.isFiniteFields, JsonValue.isDictFields, hv, hv', hrest, hrest']
      exact ⟨rfl, rfl⟩

end

end

end WordCharacters

/-- The columns of an event are plain JSON, as `jsonb` holds it. -/
structure LedgerEvent.Plain (e : LedgerEvent) : Prop where
  payload : (JsonValue.obj e.event.payload).isFinite = true ∧
    (JsonValue.obj e.event.payload).isDict = true
  metadata : (JsonValue.obj e.metadata).isFinite = true ∧ (JsonValue.obj e.metadata).isDict = true

section

variable (T : ControlText)

theorem plain_optional {α : Type} {f : α → JsonValue} (value : Option α)
    (hf : ∀ a, (f a).isFinite = true ∧ (f a).isDict = true) :
    (optional f value).isFinite = true ∧ (optional f value).isDict = true := by
  cases value with
  | none => exact ⟨rfl, rfl⟩
  | some a => exact hf a

theorem plain_eventBody {e : LedgerEvent} (he : e.Plain) :
    (eventBody T e).isFinite = true ∧ (eventBody T e).isDict = true := by
  have hredacted : ∀ {d : Dict}, (JsonValue.obj d).isFinite = true ∧
      (JsonValue.obj d).isDict = true → (JsonValue.obj (T.words.redactDetails d)).isFinite = true ∧
        (JsonValue.obj (T.words.redactDetails d)).isDict = true := fun {d} hd =>
    T.words.plain_redactValue hd.1 hd.2
  obtain ⟨hpayload, hpayload'⟩ := hredacted he.payload
  obtain ⟨hmetadata, hmetadata'⟩ := hredacted he.metadata
  obtain ⟨hposition, hposition'⟩ := plain_optional (f := fun n : ℤ => .int n)
    (e.event.globalPosition.map (↑)) fun _ => ⟨rfl, rfl⟩
  obtain ⟨hrecorded, hrecorded'⟩ := plain_optional (f := .str ∘ T.py.isoformat)
    e.event.recordedAt fun _ => ⟨rfl, rfl⟩
  obtain ⟨hcorrelation, hcorrelation'⟩ := plain_optional (f := .str ∘ UUID.str)
    e.event.correlationId fun _ => ⟨rfl, rfl⟩
  constructor
  · simpa [eventBody, JsonValue.isFinite, JsonValue.isFiniteFields, hposition, hrecorded,
      hcorrelation] using And.intro hpayload hmetadata
  · simpa [eventBody, JsonValue.isDict, JsonValue.isDictFields, hposition', hrecorded',
      hcorrelation'] using And.intro hpayload' hmetadata'

theorem plain_ledgerBody {page : LedgerPage} (hpage : ∀ e ∈ page.events, e.Plain) :
    (ledgerBody T page).isFinite = true ∧ (ledgerBody T page).isDict = true := by
  obtain ⟨hcursor, hcursor'⟩ := plain_optional (f := fun n : ℤ => .int n)
    (page.nextCursor.map (↑)) fun _ => ⟨rfl, rfl⟩
  have hfinite : JsonValue.isFiniteList (page.events.map (eventBody T)) = true := by
    rw [JsonValue.isFiniteList_iff, List.forall_mem_map]
    exact fun e he => (plain_eventBody T (hpage e he)).1
  have hdict : JsonValue.isDictList (page.events.map (eventBody T)) = true := by
    rw [JsonValue.isDictList_iff, List.forall_mem_map]
    exact fun e he => (plain_eventBody T (hpage e he)).2
  constructor
  · simp [ledgerBody, JsonValue.isFinite, JsonValue.isFiniteFields, hfinite, hcursor]
  · simp [ledgerBody, JsonValue.isDict, JsonValue.isDictFields, hdict, hcursor']

end

/-! ## Requests -/

/-- What the standard library does with a cursor. -/
structure ControlText.Faithful (T : ControlText) : Prop where
  unquote : ∀ text : List Char, '%' ∉ text → T.unquote text = String.ofList text
  int : ∀ n : ℤ, T.py.int (String.ofList (Numeral.integer n)) = some n

/-- The query with a cursor; the first page is asked for without one. -/
def cursorQuery (cursor : ℤ) : Bytes :=
  if cursor = 0 then []
  else asciiBytes ("cursor=" ++ String.ofList (Numeral.integer cursor))

theorem latin1_asciiBytes {text : String} (h : ∀ c ∈ text.toList, c.toNat < 128) :
    latin1 (asciiBytes text) = text.toList := by
  rw [latin1, asciiBytes, List.map_map]
  refine (List.map_congr_left fun c hc => ?_).trans (List.map_id _)
  have hbyte : (UInt8.ofNat c.toNat).toNat = c.toNat := by
    rw [UInt8.toNat_ofNat']
    have hlt := h c hc
    omega
  rw [Function.comp_apply, hbyte, Char.ofNat_toNat]
  rfl

theorem toList_cursor (cursor : ℤ) :
    ("cursor=" ++ String.ofList (Numeral.integer cursor)).toList =
      "cursor".toList ++ '=' :: Numeral.integer cursor := by
  simp

theorem mem_cursor {c : Char} (h : c ∈ "cursor".toList) : c ∈ "cursor=".toList := by
  have heq : "cursor=".toList = "cursor".toList ++ ['='] := by decide
  rw [heq]
  exact List.mem_append_left _ h

theorem ne_of_mem_cursor {cursor : ℤ} {c d : Char} (hdigit : d.isDigit = false) (hminus : d ≠ '-')
    (hname : d ∉ "cursor=".toList) (hc : c ∈ "cursor".toList ++ '=' :: Numeral.integer cursor) :
    c ≠ d := by
  rintro rfl
  rcases List.mem_append.1 hc with hc | hc
  · exact hname (mem_cursor hc)
  rcases List.mem_cons.1 hc with rfl | hc
  · exact hname (by decide)
  · exact Numeral.ne_of_mem_integer hdigit hminus hc rfl

theorem ascii_cursor {cursor : ℤ} {c : Char}
    (hc : c ∈ "cursor".toList ++ '=' :: Numeral.integer cursor) : c.toNat < 128 := by
  have hall : ("cursor=".toList.all fun c => c.toNat < 128) = true := by decide
  have hname : ∀ {c}, c ∈ "cursor=".toList → c.toNat < 128 := fun hc =>
    of_decide_eq_true (List.all_eq_true.1 hall _ hc)
  rcases List.mem_append.1 hc with hc | hc
  · exact hname (mem_cursor hc)
  rcases List.mem_cons.1 hc with rfl | hc
  · decide
  rcases Json.digits_integer hc with rfl | hdigit
  · decide
  · exact (Char.isDigit_iff_toNat.1 hdigit).2.trans_lt (by decide)

/-- The query holds one cursor. -/
theorem queryValues_cursor {T : ControlText} (hT : T.Faithful) (cursor : ℤ) :
    queryValues T ("cursor".toList ++ '=' :: Numeral.integer cursor) "cursor" =
      [String.ofList (Numeral.integer cursor)] := by
  have hplain : ∀ {text : List Char}, (∀ c ∈ text, c ≠ '+' ∧ c ≠ '%') →
      unquotePlus T text = String.ofList text := by
    intro text htext
    have hsame : (text.map fun c => if c = '+' then ' ' else c) = text :=
      (List.map_congr_left fun c hc => if_neg (htext c hc).1).trans (List.map_id' _)
    rw [unquotePlus, hsame]
    exact hT.unquote text fun h => (htext _ h).2 rfl
  have hrun : Runs.IsRun (fun c => decide (c = '&'))
      ("cursor".toList ++ '=' :: Numeral.integer cursor) :=
    ⟨by simp, fun c hc => decide_eq_false (ne_of_mem_cursor (by decide) (by decide) (by decide) hc)⟩
  have hruns := Runs.runs_append hrun Runs.break_nil
  rw [List.append_nil, Runs.runs_nil] at hruns
  have hall : ("cursor".toList.all fun c => c ≠ '=' && c ≠ '+' && c ≠ '%') = true := by decide
  have hcursor : ∀ c ∈ "cursor".toList, c ≠ '=' ∧ c ≠ '+' ∧ c ≠ '%' := fun c hc => by
    simpa [and_assoc] using List.all_eq_true.1 hall c hc
  have hname : ∀ c ∈ "cursor".toList, decide (c ≠ '=') = true := fun c hc =>
    decide_eq_true (hcursor c hc).1
  have htake : ("cursor".toList ++ '=' :: Numeral.integer cursor).takeWhile (· ≠ '=') =
      "cursor".toList := by
    rw [List.takeWhile_append_of_pos hname]
    simp
  have hdrop : ("cursor".toList ++ '=' :: Numeral.integer cursor).dropWhile (· ≠ '=') =
      '=' :: Numeral.integer cursor := by
    rw [List.dropWhile_append_of_pos hname]
    simp
  have hvalue : unquotePlus T (Numeral.integer cursor) = String.ofList (Numeral.integer cursor) :=
    hplain fun c hc => ⟨Numeral.ne_of_mem_integer (by decide) (by decide) hc,
      Numeral.ne_of_mem_integer (by decide) (by decide) hc⟩
  have hkey : unquotePlus T "cursor".toList = "cursor" :=
    (hplain fun c hc => (hcursor c hc).2).trans String.ofList_toList
  rw [queryValues, hruns, List.filterMap_cons, htake, hdrop, hkey, if_pos rfl, List.drop_one,
    List.tail_cons, hvalue, List.filterMap_nil]

/-- **A cursor that is accepted is the one that was sent.** -/
theorem cursorParameter_eq {T : ControlText} (hT : T.Faithful) {scope : Scope} {cursor c : ℤ}
    (hquery : scope.queryString = some (cursorQuery cursor))
    (hc : scope.cursorParameter T = .ok c) : c = cursor := by
  simp only [Scope.cursorParameter, bind_eq_ok, orRaise_eq_ok, raiseIf_eq_ok] at hc
  obtain ⟨raw, hraw, -, -, hc⟩ := hc
  rw [hquery, Option.some.injEq] at hraw
  subst hraw
  by_cases hzero : cursor = 0
  · subst hzero
    exact (pure_eq_ok.1 hc).symm
  · have htext : latin1 (cursorQuery cursor) =
        "cursor".toList ++ '=' :: Numeral.integer cursor := by
      rw [cursorQuery, if_neg hzero, latin1_asciiBytes, toList_cursor]
      rw [toList_cursor]
      exact fun c hc => ascii_cursor hc
    rw [htext, queryValues_cursor hT] at hc
    simp only [bind_eq_ok, orRaise_eq_ok, raiseIf_eq_ok, pure_eq_ok] at hc
    obtain ⟨-, -, n, hn, -, -, rfl⟩ := hc
    rw [hT.int, Option.some.injEq] at hn
    exact hn.symm

/-! ## Responses -/

namespace ControlPlaneApp

/-- The page of a response, and the cursor of the next one. -/
def pageOf? (F : Json.FloatText) : List AsgiMessage → Option (List JsonValue × Option ℤ)
  | [.start status _, .body encoded] =>
    if status = 200 then
      match Json.loads F encoded with
      | some (.obj body) =>
        match Dict.get? body "events", Dict.get? body "next_cursor" with
        | some (.list items), some (.int cursor) => some (items, some cursor)
        | some (.list items), some .null => some (items, none)
        | _, _ => none
      | _ => none
    else none
  | _ => none

section

variable {T : ControlText} {app : ControlPlaneApp} {scope : Scope} {α : Type}
  {h : ControlHistory} {tenantId : TenantId}

/-- No `200` has been sent. -/
def Quiet (h : ControlHistory) : Prop := ∀ headers, .start 200 headers ∉ sent h

/-- If a `200` has been answered, it is with the page that was read. -/
def Shown (T : ControlText) (scope : Scope) (tenantId : TenantId) (h : ControlHistory) : Prop :=
  ∀ headers encoded, sent h = [.start 200 headers, .body encoded] → ∃ cursor page,
    scope.cursorParameter T = .ok cursor ∧
      ⟨.readAll tenantId.context cursor 100, .ok page⟩ ∈ h ∧
      encoded = Json.print T.floats (ledgerBody T page)

theorem Quiet.shown (hquiet : Quiet h) : Shown T scope tenantId h := by
  intro headers encoded hsent
  exact absurd (hsent ▸ List.mem_cons_self) (hquiet headers)

theorem Quiet.call {c : ControlOp} (hc : ∀ headers, c ≠ .send (.start 200 headers))
    (r : Except ControlRaised c.Reply) (hquiet : Quiet h) : Quiet (h ++ [⟨c, r⟩]) := by
  intro headers hmem
  rw [sent_concat, List.mem_append] at hmem
  rcases hmem with hmem | hmem
  · exact hquiet headers hmem
  · cases c with
    | send message =>
      cases r with
      | ok _ =>
        rw [sent?, Option.toList_some, List.mem_singleton] at hmem
        exact hc headers (by rw [hmem])
      | error e => cases hmem
    | _ => cases hmem

/-- A part that sends no `200`. -/
theorem wp_quiet {p : Handling α} (hp : p.Asks Plain) (hquiet : Quiet h) :
    p.wp (fun _ _ => True) (fun _ _ => True) (fun _ h' => Quiet h') h :=
  hp.keeps (fun _ _ _ => trivial) (fun _ _ r hc hquiet => hquiet.call hc.sends r) hquiet

/-- Such a part, and what follows it. -/
theorem wp_quiet_bind {β : Type} {p : Handling α} {f : α → Handling β}
    {Q : Except ControlRaised β → ControlHistory → Prop} (hp : p.Asks Plain) (hquiet : Quiet h)
    (herror : ∀ e h', Quiet h' → Q (.error e) h')
    (hok : ∀ a h', Quiet h' → (f a).wp (fun _ _ => True) (fun _ _ => True) Q h') :
    (p >>= f).wp (fun _ _ => True) (fun _ _ => True) Q h := by
  refine wp_bind _ (wp_mono (fun o h' hquiet => ?_) _ (wp_quiet hp hquiet))
  cases o with
  | ok a => exact hok a h' hquiet
  | error e => exact herror e h' hquiet

theorem plain_authenticate {correlationId : UUID} :
    (authenticate T app scope correlationId).Asks Plain := by
  unfold authenticate
  split
  · exact asks_bind (plain_respond (by decide)) fun _ => asks_pure _
  refine asks_bind (asks_handle (asks_bind (asks_ask ⟨rfl, fun _ heq => by cases heq⟩)
    fun _ => asks_pure _) fun e => ?_) fun principal? => ?_
  · split
    · exact asks_bind plain_refuse fun _ => asks_pure _
    · exact asks_bind (plain_respond (by decide)) fun _ => asks_pure _
    · exact asks_throw _
  · cases principal? with
    | none => exact asks_pure _
    | some principal => exact asks_bind plain_auditEvent fun _ => asks_pure _

theorem plain_authorize {principal : Principal} {correlationId : UUID} {permission : Permission}
    {resource : String} :
    (authorize T principal tenantId correlationId permission resource).Asks Plain := by
  refine asks_bind (asks_ask plain_now) fun _ => asks_bind plain_auditEvent fun _ => ?_
  split
  · exact asks_pure _
  · exact asks_bind (plain_respond (by decide)) fun _ => asks_pure _

/-- The response with a page. -/
theorem wp_respond_page {cursor : ℤ} {page : LedgerPage} (hquiet : Quiet h)
    (hcursor : scope.cursorParameter T = .ok cursor)
    (hread : ⟨.readAll tenantId.context cursor 100, .ok page⟩ ∈ h) :
    (respond T 200 (ledgerBody T page)).wp (fun _ _ => True) (fun _ _ => True)
      (fun _ h' => Shown T scope tenantId h') h := by
  refine wp_ask_bind trivial (fun e _ => ?_) fun _ _ => ?_
  · refine Quiet.shown fun headers hmem => ?_
    rw [sent_concat] at hmem
    exact hquiet headers ((List.mem_append.1 hmem).resolve_right fun hmem => by cases hmem)
  · refine ⟨trivial, fun r _ => wp_ofExcept fun headers encoded hsent => ?_⟩
    -- the last message that is sent is the body, if it is sent at all
    have hlast := congrArg List.getLast? hsent
    rw [sent_concat, sent_concat] at hlast
    cases r with
    | error e => simp [sent?] at hlast
    | ok _ =>
      refine ⟨cursor, page, hcursor, ?_, ?_⟩
      · exact List.mem_append_left _ (List.mem_append_left _ hread)
      · simpa [sent?] using hlast.symm

/-- The reading of a page: either it has been read, or it is answered that it could not be. -/
theorem wp_read_page {cursor : ℤ} (hquiet : Quiet h) :
    (unlessUnavailable T (ask (ControlOp.readAll tenantId.context cursor 100))).wp
      (fun _ _ => True) (fun _ _ => True) (fun o h' => Quiet h' ∧ ∀ page, o = .ok (some page) →
        ⟨.readAll tenantId.context cursor 100, .ok page⟩ ∈ h') h := by
  have hreads : ∀ headers, ControlOp.readAll tenantId.context cursor 100 ≠
      .send (.start 200 headers) := fun _ heq => by cases heq
  refine wp_handle _ (wp_ask_bind trivial (fun e _ => ?_) fun page _ => ?_)
  · have hanswered := hquiet.call hreads (.error e)
    dsimp only
    split
    · exact wp_quiet_bind (plain_respond (by decide)) hanswered
        (fun _ _ hquiet => ⟨hquiet, fun _ heq => by cases heq⟩)
        fun _ _ hquiet => ⟨hquiet, fun _ heq => by cases heq⟩
    · exact ⟨hanswered, fun _ heq => by cases heq⟩
  · refine ⟨hquiet.call hreads _, fun page' heq => ?_⟩
    cases heq
    exact List.mem_append_right _ (List.mem_singleton.2 rfl)

/-- **What is answered to a request for the ledger** is a page that was read. -/
theorem wp_shown {path : String} (hpath : scope.path = some path)
    (hroute : Route.of path = .ledger tenantId) :
    (call T app scope).wp (fun _ _ => True) (fun _ _ => True)
      (fun _ h' => Shown T scope tenantId h') [] := by
  have hstart : Quiet [] := fun _ hmem => by cases hmem
  have hplain : ∀ {p : Handling Unit} {h : ControlHistory}, p.Asks Plain → Quiet h →
      p.wp (fun _ _ => True) (fun _ _ => True) (fun _ h' => Shown T scope tenantId h') h :=
    fun hp hquiet => wp_mono (fun _ _ hquiet => hquiet.shown) _ (wp_quiet hp hquiet)
  have hprobe : ∀ probe ∈ probes, path ≠ probe := by
    rintro probe hmem rfl
    have hnotFound : ∀ probe ∈ probes, Route.of probe = .notFound := by
      simp only [probes, List.forall_mem_cons]
      exact ⟨rfl, rfl, rfl, rfl, fun _ hmem => by cases hmem⟩
    rw [hnotFound path hmem] at hroute
    cases hroute
  unfold call
  split
  · exact hstart.shown
  split
  · exact hplain (plain_respond (by decide)) hstart
  rw [hpath]
  dsimp only
  split
  · rename_i hhealth
    rcases hhealth with rfl | rfl <;> exact absurd rfl (hprobe _ (by simp [probes]))
  split
  · rename_i hready
    rcases hready with rfl | rfl <;> exact absurd rfl (hprobe _ (by simp [probes]))
  split
  · exact hplain (plain_respond (by decide)) hstart
  refine wp_quiet_bind (asks_ask ⟨rfl, fun _ heq => by cases heq⟩) hstart
    (fun _ _ hquiet => hquiet.shown) fun correlationId h hquiet => wp_quiet_bind plain_authenticate
      hquiet (fun _ _ hquiet => hquiet.shown) fun principal? h hquiet => ?_
  cases principal? with
  | none => exact hquiet.shown
  | some principal =>
    rw [hroute]
    dsimp only [handle]
    unfold withCursor
    split
    · exact hplain (plain_respond (by decide)) hquiet
    rename_i cursor hcursor
    refine wp_quiet_bind plain_authorize hquiet (fun _ _ hquiet => hquiet.shown)
      fun authorized h hquiet => ?_
    split
    · split
      · exact hplain (plain_respond (by decide)) hquiet
      · refine wp_bind _ (wp_mono (fun o h' hpage => ?_) _ (wp_read_page hquiet))
        obtain ⟨hquiet, hread⟩ := hpage
        cases o with
        | error e => exact hquiet.shown
        | ok page? =>
          cases page? with
          | none => exact hquiet.shown
          | some page => exact wp_respond_page hquiet hcursor (hread page rfl)
    · exact hquiet.shown

end

/-! ## A client -/

/-- A page, with the metadata of its events. -/
def withMetadata (metadata : EventEnvelope → Dict) (page : EventPage) : LedgerPage :=
  ⟨page.events.map fun row => ⟨row.event, metadata row.event⟩, page.nextCursor⟩

/-- The client asks for the page after the cursor. -/
structure Asking (tenantId : TenantId) (cursor : ℤ) (scope : Scope) : Prop where
  path : ∃ path, scope.path = some path ∧ Route.of path = .ledger tenantId
  query : scope.queryString = some (cursorQuery cursor)

/-- What is read of the ledger is what it holds; a read may fail, and everything else be answered
in any way. -/
def ReadsLedger (metadata : EventEnvelope → Dict) (l : Ledger) (env : ControlEnv) : Prop :=
  ∀ h context after limit page, env h (.readAll context after limit) = .ok page →
    ∃ page', l.readAll context after limit = .ok page' ∧ page = withMetadata metadata page'

/-- The client after some requests and some steps of the event store: what it has been given, and
the cursor it goes on with. -/
inductive Following (T : ControlText) (app : ControlPlaneApp) (tenantId : TenantId)
    (metadata : EventEnvelope → Dict) (s : LedgerSys) :
    LedgerSys → List JsonValue → Option ℤ → Prop
  | start : Following T app tenantId metadata s s [] (some 0)
  | step {s' s'' : LedgerSys} {received : List JsonValue} {next : Option ℤ}
      {a : Action AppendCall} : Following T app tenantId metadata s s' received next →
      LedgerStep s' a s'' → Following T app tenantId metadata s s'' received next
  | page {s' : LedgerSys} {received items : List JsonValue} {cursor : ℤ} {next : Option ℤ}
      {scope : Scope} {env : ControlEnv} :
      Following T app tenantId metadata s s' received (some cursor) →
      Asking tenantId cursor scope → ReadsLedger metadata s'.shared env →
      pageOf? T.floats (sent ((call T app scope).run env []).1) = some (items, next) →
      Following T app tenantId metadata s s' (received ++ items) next

section

variable {T : ControlText} {app : ControlPlaneApp} {scope : Scope} {tenantId : TenantId}
  {env : ControlEnv} {metadata : EventEnvelope → Dict} {l : Ledger}
  {events rest : List EventEnvelope} {items : List JsonValue} {next : Option ℤ}

/-- What is read off a response with a page. -/
theorem pageOf?_eq {page : LedgerPage} {messages : List AsgiMessage}
    (hplain : ∀ e ∈ page.events, e.Plain)
    (hencoded : ∀ headers encoded, messages = [.start 200 headers, .body encoded] →
      encoded = Json.print T.floats (ledgerBody T page))
    (hpage : pageOf? T.floats messages = some (items, next)) :
    items = page.events.map (eventBody T) ∧ next = page.nextCursor.map (↑) := by
  obtain ⟨hfinite, hdict⟩ := plain_ledgerBody T hplain
  have hloads := Json.loads_print T.floats hfinite hdict
  unfold pageOf? at hpage
  split at hpage
  · rename_i status headers encoded
    split at hpage
    · rename_i hstatus
      subst hstatus
      rw [hencoded headers encoded rfl, hloads, ledgerBody] at hpage
      dsimp only at hpage
      have hevents : ∀ xs c : JsonValue,
          Dict.get? [("events", xs), ("next_cursor", c)] "events" = some xs := fun _ _ => rfl
      have hnext : ∀ xs c : JsonValue,
          Dict.get? [("events", xs), ("next_cursor", c)] "next_cursor" = some c := fun _ _ => rfl
      rw [hevents, hnext] at hpage
      cases hcursor : page.nextCursor <;> rw [hcursor] at hpage <;> cases hpage <;> exact ⟨rfl, rfl⟩
    · cases hpage
  · cases hpage

/-- A page of the repository: what comes next, and the cursor after a full page. -/
theorem readAll_page (hl : l.Inv) {context : TenantContext} {page : EventPage}
    (hhistory : l.history context.tenantId = events ++ rest)
    (hread : l.readAll context (AegisPlatform.cursor events) 100 = .ok page) :
    page.events.map (·.event) = rest.take 100 ∧ page.nextCursor =
      if 100 ≤ rest.length then some (AegisPlatform.cursor (events ++ rest.take 100)) else none := by
  obtain ⟨-, hevents⟩ := readAll_reader hl hhistory hread
  refine ⟨hevents, ?_⟩
  have hrows : l.selectAll context.tenantId (AegisPlatform.cursor events) 100 =
      (rest.take 100).map l.replayed := selectAll_eq hl hhistory 100
  simp only [Ledger.readAll, bind_eq_ok, pure_eq_ok, hrows] at hread
  obtain ⟨-, -, -, -, rfl⟩ := hread
  by_cases hfull : 100 ≤ rest.length
  · have hne : rest.take 100 ≠ [] := by
      rw [← List.length_pos_iff, List.length_take]
      omega
    obtain ⟨e, he⟩ := Option.ne_none_iff_exists'.1 (List.getLast?_eq_none_iff.not.2 hne)
    have hordered := hl.ordered context.tenantId
    rw [hhistory] at hordered
    obtain ⟨p, hp, -⟩ := hordered.pos (List.mem_append_right _
      (List.mem_of_mem_take (List.mem_of_getLast? he)))
    have hcursor : AegisPlatform.cursor (events ++ rest.take 100) = p := by
      rw [AegisPlatform.cursor, List.getLast?_append, he, Option.some_or, Option.bind_some, hp]
      rfl
    rw [if_pos hfull, hcursor, if_pos]
    · rw [List.getLast?_map, he]
      exact hp
    · rw [List.length_map, List.length_take]
      omega
  · rw [if_neg hfull, if_neg]
    rw [List.length_map, List.length_take]
    omega

/-- **A response is what comes next** after what the client has been given. -/
theorem page_spec (hT : T.Faithful) (hl : l.Inv)
    (hplain : ∀ e ∈ l.history tenantId.value, LedgerEvent.Plain ⟨e, metadata e⟩)
    (hhistory : l.history tenantId.value = events ++ rest)
    (hasking : Asking tenantId (AegisPlatform.cursor events) scope)
    (hreads : ReadsLedger metadata l env)
    (hpage : pageOf? T.floats (sent ((call T app scope).run env []).1) = some (items, next)) :
    items = (rest.take 100).map (fun e => eventBody T ⟨e, metadata e⟩) ∧ next =
      if 100 ≤ rest.length then some ↑(AegisPlatform.cursor (events ++ rest.take 100))
      else none := by
  obtain ⟨⟨path, hpath, hroute⟩, hquery⟩ := hasking
  have hshown : Shown T scope tenantId ((call T app scope).run env []).1 :=
    run_outcome (fun h c => (trivial : (fun _ _ => True) c (env h c))) (wp_shown hpath hroute)
  have hanswered : ∃ messages, sent ((call T app scope).run env []).1 = messages := ⟨_, rfl⟩
  obtain ⟨messages, hmessages⟩ := hanswered
  rw [hmessages] at hpage
  have hstatus : ∃ headers encoded, messages = [.start 200 headers, .body encoded] := by
    unfold pageOf? at hpage
    split at hpage
    · rename_i status headers encoded
      split at hpage
      · rename_i hstatus
        exact ⟨headers, encoded, by rw [hstatus]⟩
      · cases hpage
    · cases hpage
  obtain ⟨headers, encoded, rfl⟩ := hstatus
  obtain ⟨cursor, page, hcursor, hmem, hencoded⟩ := hshown headers encoded hmessages
  rw [cursorParameter_eq hT hquery hcursor] at hmem
  obtain ⟨n, hn⟩ := List.getElem?_of_mem hmem
  obtain ⟨page', hread, rfl⟩ := hreads _ _ _ _ _ (run_answers_at hn).symm
  obtain ⟨hevents, hnext⟩ := readAll_page hl hhistory hread
  have hbodies : (withMetadata metadata page').events =
      (rest.take 100).map fun e => ⟨e, metadata e⟩ := by
    rw [← hevents, List.map_map]
    rfl
  have hbodiesPlain : ∀ e ∈ (withMetadata metadata page').events, e.Plain := by
    rw [hbodies, List.forall_mem_map]
    exact fun e he => hplain e (hhistory ▸ List.mem_append_right _ (List.mem_of_mem_take he))
  obtain ⟨hitems, hcursor'⟩ := pageOf?_eq hbodiesPlain (fun _ _ heq => by cases heq; exact hencoded)
    hpage
  rw [hbodies, List.map_map] at hitems
  have hwith : (withMetadata metadata page').nextCursor = page'.nextCursor := rfl
  refine ⟨hitems, hcursor'.trans ?_⟩
  rw [hwith, hnext]
  split <;> rfl

variable {tenants : List String} {clock : Timestamp} {s₀ s : LedgerSys} {received : List JsonValue}

theorem Following.run (hfollowing : Following T app tenantId metadata s₀ s received next)
    (hrun : LedgerRun tenants clock s₀) : LedgerRun tenants clock s := by
  induction hfollowing with
  | start => exact hrun
  | step _ hstep ih => exact ih.step hstep
  | page _ _ _ _ ih => exact ih

/-- What a client has been given. -/
theorem Following.followed (hT : T.Faithful)
    (hfollowing : Following T app tenantId metadata s₀ s received next)
    (hrun : LedgerRun tenants clock s₀)
    (hplain : ∀ e ∈ s.shared.history tenantId.value, LedgerEvent.Plain ⟨e, metadata e⟩) :
    ∃ events, events <+: s.shared.history tenantId.value ∧
      received = events.map (fun e => eventBody T ⟨e, metadata e⟩) ∧
      ∀ cursor, next = some cursor → cursor = AegisPlatform.cursor events := by
  induction hfollowing with
  | start =>
    refine ⟨[], List.nil_prefix, rfl, fun cursor heq => ?_⟩
    cases heq
    rfl
  | @step s' s'' received next a hbefore hstep ih =>
    -- what becomes visible comes last
    obtain ⟨new, hnew, -⟩ := history_step (hbefore.run hrun) hstep tenantId.value
    have hgrown : s'.shared.history tenantId.value <+: s''.shared.history tenantId.value :=
      ⟨new, hnew.symm⟩
    obtain ⟨events, hevents, hreceived, hcursor⟩ :=
      ih fun e he => hplain e (hgrown.subset he)
    exact ⟨events, hevents.trans hgrown, hreceived, hcursor⟩
  | @page s' received items cursor next scope env hbefore hasking hreads hpage ih =>
    obtain ⟨events, ⟨rest, hrest⟩, hreceived, hcursor⟩ := ih hplain
    rw [hcursor cursor rfl] at hasking
    obtain ⟨rfl, rfl⟩ :=
      page_spec hT (hbefore.run hrun).good.inv hplain hrest.symm hasking hreads hpage
    refine ⟨events ++ rest.take 100, ?_, ?_, fun cursor heq => ?_⟩
    · rw [← hrest]
      exact (List.prefix_append_right_inj _).2 (List.take_prefix _ _)
    · rw [hreceived, List.map_append]
    · split at heq
      · cases heq
        rfl
      · cases heq

end

/-- **The ledger can be followed.**  A client asks for page after page of the ledger of a tenant,
each time with the cursor it was given, while other calls append.  Whatever else happens to its
requests, it has been given the bodies of a first part of the tenant's history, in the order of
positions and each event once.  As long as it is given a cursor every page is full; with the page
that comes without one, it has been given the whole history. -/
theorem ledger_followed (T : ControlText) (app : ControlPlaneApp) (tenantId : TenantId)
    (metadata : EventEnvelope → Dict) (hT : T.Faithful) {tenants : List String} {clock : Timestamp}
    {s₀ s : LedgerSys} {received : List JsonValue} {next : Option ℤ}
    (hrun : LedgerRun tenants clock s₀)
    (hfollowing : Following T app tenantId metadata s₀ s received next)
    (hplain : ∀ e ∈ s.shared.history tenantId.value, LedgerEvent.Plain ⟨e, metadata e⟩) :
    ∃ events, events <+: s.shared.history tenantId.value ∧ events.Pairwise Precedes ∧
      received = events.map (fun e => eventBody T ⟨e, metadata e⟩) ∧
      ∀ cursor, next = some cursor → ∀ scope env items next', Asking tenantId cursor scope →
        ReadsLedger metadata s.shared env →
        pageOf? T.floats (sent ((call T app scope).run env []).1) = some (items, next') →
        (next' ≠ none → items.length = 100) ∧
        (next' = none → received ++ items = (s.shared.history tenantId.value).map
          fun e => eventBody T ⟨e, metadata e⟩) := by
  obtain ⟨events, ⟨rest, hrest⟩, hreceived, hcursor⟩ := hfollowing.followed hT hrun hplain
  have hinv : s.shared.Inv := (hfollowing.run hrun).good.inv
  refine ⟨events, ⟨rest, hrest⟩, ?_, hreceived, fun cursor hnext scope env items next' hasking
    hreads hpage => ?_⟩
  · exact (hinv.ordered tenantId.value).pairwise.sublist (List.IsPrefix.sublist ⟨rest, hrest⟩)
  · rw [hcursor cursor hnext] at hasking
    obtain ⟨rfl, rfl⟩ := page_spec hT hinv hplain hrest.symm hasking hreads hpage
    rw [hreceived, ← hrest, ← List.map_append]
    by_cases hfull : 100 ≤ rest.length
    · rw [if_pos hfull]
      refine ⟨fun _ => ?_, fun hnone => by cases hnone⟩
      rw [List.length_map, List.length_take]
      omega
    · rw [if_neg hfull, List.take_of_length_le (by omega)]
      exact ⟨fun hne => absurd rfl hne, fun _ => rfl⟩

theorem sampleControlText_faithful : sampleControlText.Faithful :=
  ⟨fun _ _ => rfl, fun n =>
    (congrArg Numeral.readInteger String.toList_ofList).trans (Numeral.readInteger_integer n)⟩

/-- Reads of a ledger without metadata. -/
def clientEnv (l : Ledger) : ControlEnv := fun h c => match c with
  | .readAll context after limit =>
    ((l.readAll context after limit).map (withMetadata fun _ => [])).mapError .raised
  | c => sampleEnv h c

theorem clientEnv_reads (l : Ledger) : ReadsLedger (fun _ => []) l (clientEnv l) := by
  intro h context after limit page hanswer
  obtain ⟨page', hread, rfl⟩ := map_eq_ok.1 (mapError_eq_ok.1 hanswer)
  exact ⟨page', hread, rfl⟩

/-- Alice is given the ledger of her tenant, with one page. -/
theorem ledger_followed_sample : ∃ s received, LedgerRun ["acme"] 0 s ∧ received ≠ [] ∧
    received = (s.shared.history "acme").map fun e => eventBody sampleControlText ⟨e, []⟩ := by
  have hany : (Sys.drive ledgerEngine AppendCall.transaction ⟨Ledger.fresh ["acme"] 0, []⟩
      (firstDelivery ++ [.commit 0])).any (fun s =>
        (pageOf? sampleControlText.floats (sent ((call sampleControlText sampleApp ledgerScope).run
          (clientEnv s.shared) []).1)).any (fun page => !page.1.isEmpty && page.2.isNone) &&
        (s.shared.history "acme").all fun e => (JsonValue.obj e.payload).isFinite &&
          (JsonValue.obj e.payload).isDict) = true := by decide +kernel
  obtain ⟨s, hs, htest⟩ := (Option.any_eq_true _ _).1 hany
  rw [Bool.and_eq_true] at htest
  obtain ⟨hpage, hplain⟩ := htest
  obtain ⟨⟨items, next⟩, hitems, hlast⟩ := (Option.any_eq_true _ _).1 hpage
  rw [Bool.and_eq_true, Option.isNone_iff_eq_none] at hlast
  obtain ⟨hne, rfl⟩ := hlast
  have hrun : LedgerRun ["acme"] 0 s := Sys.drive_run hs
  have hasking : Asking acmeTenantId 0 ledgerScope := ⟨⟨_, rfl, rfl⟩, rfl⟩
  have hplain' : ∀ e ∈ s.shared.history "acme", LedgerEvent.Plain ⟨e, []⟩ := by
    intro e he
    have htest := List.all_eq_true.1 hplain e he
    rw [Bool.and_eq_true] at htest
    exact ⟨htest, rfl, rfl⟩
  obtain ⟨-, -, -, -, hall⟩ := ledger_followed sampleControlText sampleApp acmeTenantId (fun _ => [])
    sampleControlText_faithful hrun .start hplain'
  obtain ⟨-, hwhole⟩ := hall 0 rfl ledgerScope (clientEnv s.shared) items none hasking
    (clientEnv_reads s.shared) hitems
  refine ⟨s, items, hrun, fun hnil => ?_, hwhole rfl⟩
  rw [hnil] at hne
  cases hne

end ControlPlaneApp

end AegisPlatform
