import Cixa.Answers
import Cixa.Strict

/-! # The client — a call through the socket is the call

    The command line writes one frame to a socket and reads one line back.
    Whatever the other connections do meanwhile, what it makes of that line is
    what its request came to when it was CALLED on the treasury; or it is an
    error, and then either the line was too long or nothing was called. -/

namespace Treasury

open CixaData CixaHost Outcome Transition Admission Codec

/-! ## What a client writes and reads -/

/-- The frame of a request. -/
def requestFrame (request : RpcRequest) : List UInt8 :=
  Json.render (Encode.rpcRequest request) ++ [10]

/-- A response as it is read: its data is a value. -/
structure ReceivedResponse where
  apiVersion : String
  requestId : String
  ok : Bool
  data : Option Doc
  error : Option String

/-- The fields of a response. -/
def rpcResponseNames : List String :=
  ["api_version", "request_id", "ok", "data", "error"]

/-- The named fields of a record that lets other fields be. -/
def looseFields (names : List String) : Doc → Option (List (String × Doc))
  | .obj fs =>
      let known := fs.filter fun f => decide (f.1 ∈ names)
      if (known.map Prod.fst).Nodup then some known else none
  | .arr ds => if ds.length = names.length then some (names.zip ds) else none
  | _ => none

/-- The derived reader of a response: a field that may be absent is absent
    when it is null, too. -/
def readRpcResponse (d : Doc) : Option ReceivedResponse := do
  let fields ← looseFields rpcResponseNames d
  let field := fun name => SortedMap.lookupEntry name fields
  let apiVersion ← (field "api_version").bind Reader.text.read
  let requestId ← (field "request_id").bind Reader.text.read
  let ok ← (field "ok").bind Reader.flag.read
  let data := match field "data" with
    | none => none
    | some .null => none
    | some d => some (valueOf d)
  let error ← match field "error" with
    | none => some none
    | some d => (Reader.maybe .text).read d
  pure ⟨apiVersion, requestId, ok, data, error⟩

/-- What a client makes of what it is sent. -/
def readAnswer (serde : SerdeJson) (sent : List UInt8) : Except String Doc :=
  let encoded := readFrame sent
  if ¬isFrame encoded then
    .error "broker response exceeded the bounded frame size"
  else match serde.parse encoded with
    | .error e => .error e
    | .ok d =>
        match readRpcResponse d with
        | none => .error (serde.explain encoded .derived)
        | some response =>
            if response.ok = true then
              match response.data with
              | some data => .ok data
              | none => .error "broker returned no data"
            else .error (response.error.getD "broker rejected request")

/-! ## What a call comes to -/

/-- The response that tells what a call came to. -/
def responseTo (host : Host) (requestId : String) :
    Except TreasuryError Json → RpcResponse
  | .ok data => .success requestId data
  | .error e => .failure requestId (redactSensitive host e.toText)

/-- What a client is told of what a call came to. -/
def told (host : Host) : Except TreasuryError Json → Except String Doc
  | .ok .null => .error "broker returned no data"
  | .ok data => .ok (value data)
  | .error e => .error (redactSensitive host e.toText)

variable {host : Host} {ctx : ServeContext} {d d' : Daemon} {i j : Nat}
  {r : Readings} {t : Thread} {w : World} {q : RpcRequest}

/-! ## Reading a line -/

/-- A response that is written is read again. -/
theorem readRpcResponse_written (response : RpcResponse) :
    readRpcResponse (reread (Encode.rpcResponse response))
      = some ⟨response.apiVersion, response.requestId, response.ok,
        match response.data with
          | none => none
          | some .null => none
          | some data => some (value data), response.error⟩ := by
  obtain ⟨version, id, ok, data, error⟩ := response
  have hfields : looseFields rpcResponseNames (reread (Encode.rpcResponse
      ⟨version, id, ok, data, error⟩)) = some [("api_version", .str version),
        ("request_id", .str id), ("ok", .bool ok),
        ("data", reread (data.getD .null)),
        ("error", reread (Json.optStr error))] := rfl
  unfold readRpcResponse
  rw [hfields]
  cases error with
  | none =>
      rcases data with _ | data
      · rfl
      · cases data <;> rfl
  | some error =>
      rcases data with _ | data
      · rfl
      · cases data <;> rfl

/-- **A LINE IS READ** as the response it holds. -/
theorem readAnswer_line {serde : SerdeJson} {response : RpcResponse}
    {sent : List UInt8} (hline : IsLine response sent)
    (hparse : serde.parse sent = .ok (reread (Encode.rpcResponse response))) :
    readAnswer serde sent = if response.ok = true then
        match response.data with
          | none => .error "broker returned no data"
          | some .null => .error "broker returned no data"
          | some data => .ok (value data)
      else .error (response.error.getD "broker rejected request") := by
  have hlimit := hline.limit
  rw [hline.text, List.length_append] at hlimit
  obtain ⟨hread, hframe⟩ := @readFrame_line _ [] hlimit
  rw [← hline.text] at hread hframe
  unfold readAnswer
  dsimp only
  rw [hread, if_neg (not_not.mpr hframe), hparse]
  dsimp only
  rw [readRpcResponse_written]
  dsimp only
  split
  · rcases response.data with _ | data
    · rfl
    · cases data <;> rfl
  · rfl

theorem readAnswer_responseTo {serde : SerdeJson} {requestId : String}
    {called : Except TreasuryError Json} {sent : List UInt8}
    (hline : IsLine (responseTo host requestId called) sent)
    (hparse : serde.parse sent = .ok (reread (Encode.rpcResponse
      (responseTo host requestId called)))) :
    readAnswer serde sent = told host called := by
  rw [readAnswer_line hline hparse]
  cases called with
  | ok data => cases data <;> rfl
  | error e => rfl

/-! ## The frame that is sent -/

/-- A line is read as far as it goes, cut off or not. -/
theorem readUntil_take {text : List UInt8} (h : 10 ∉ text) (n : Nat) :
    readUntil 10 ((text ++ [10]).take n) = (text ++ [10]).take n := by
  induction text generalizing n with
  | nil =>
      cases n with
      | zero => rfl
      | succ n => rw [List.nil_append, List.take_succ_cons, List.take_nil]; rfl
  | cons b text ih =>
      cases n with
      | zero => rfl
      | succ n =>
          rw [List.cons_append, List.take_succ_cons, readUntil, if_neg,
            ih fun hb => h (List.mem_cons_of_mem _ hb)]
          rintro rfl
          exact h (List.mem_cons_self ..)

/-- A request that reaches the broker as a frame is read as it was sent. -/
theorem requestFrame_sent (hq : q.operation.Ranged)
    (harrival : t.arrival = .ok (requestFrame q))
    (hparse : ctx.serde.parse (requestFrame q)
      = .ok (reread (Encode.rpcRequest q))) {q' : RpcRequest}
    (hsent : Sent ctx t q') : q' = q := by
  obtain ⟨bytes, ha, hframe, hdecode⟩ := hsent
  cases harrival.symm.trans ha
  have hfits : (Json.render (Encode.rpcRequest q)).length + 1
      ≤ maxFrameBytes := by
    refine Nat.le_of_not_lt fun hlong => ?_
    -- too long a text is cut off at a length that no frame has
    have hlen := hframe.1
    unfold readFrame requestFrame at hlen
    rw [readUntil_take (render_no_line_feed _), List.length_take,
      List.length_append, List.length_singleton] at hlen
    omega
  obtain ⟨hread, _⟩ := @readFrame_line _ [] hfits
  have hread : readFrame (requestFrame q) = requestFrame q := hread
  unfold decodeFrame at hdecode
  rw [hread, hparse] at hdecode
  dsimp only at hdecode
  rw [rpcRequest_value hq] at hdecode
  cases hdecode
  rfl

/-! ## What a thread has to tell -/

/-- Whether a thread that served its request, or refused it, tells a
    response.  One that could not write its line tells nothing at all, so
    whatever it has to tell is as it should be. -/
def Stage.Tells : Stage → RpcResponse → Prop
  | .updating response _, told => response = told
  | .served _ response, told => response = told
  | .parting response, told => response = told
  | .writing response, told => response = told
  | .closed (some sent), told => IsLine told sent
  | .closed none, _ => True
  | _, _ => False

theorem Stage.Tells.isPast {stage : Stage} {response : RpcResponse}
    (h : stage.Tells response) : stage.isPast = true := by
  unfold Stage.Tells at h
  split at h
  · rfl
  · rfl
  · rfl
  · rfl
  · rfl
  · rfl
  · cases h

/-- A line that holds a response tells it, whether it is written or not. -/
theorem IsLine.tells {response : RpcResponse} {line : List UInt8}
    (h : IsLine response line) (departure : Except String Unit) :
    (Stage.closed (Daemon.delivered departure line)).Tells response := by
  cases departure with
  | ok _ => exact h
  | error _ => trivial

/-- A response that tells of no call. -/
def RpcResponse.IsFailure (response : RpcResponse) : Prop :=
  ∃ id error, response = .failure id error

/-- What a thread begins to tell, of the treasury before and after: that its
    request was refused, or what its call came to. -/
inductive Tidings (ctx : ServeContext) (t : Thread) (w w' : World)
    (response : RpcResponse) : Prop where
  | refused (hfail : response.IsFailure) (hw : w' = w)
  | called {q : RpcRequest} {c : Call} (hsent : Sent ctx t q)
      (hmakes : Makes ctx t q c) (hw : w' = exec ctx.host c w)
      (htold : response
        = responseTo ctx.host q.requestId (result (c.perform ctx.host) w))

theorem handleRpcPersisted_tidings (hsent : Sent ctx t q)
    (hagent : t.ownerChannel = false → q.operation.requiresOwner = false) :
    Tidings ctx t w (handleRpcPersisted ctx.host q w).2
      (handleRpcPersisted ctx.host q w).1 := by
  unfold handleRpcPersisted
  by_cases hv : q.apiVersion ≠ apiVersion
  · rw [if_pos hv]
    exact .refused ⟨_, _, rfl⟩ rfl
  · rw [if_neg hv]
    have hcall : Makes ctx t q (.persisted q.token q.operation) :=
      .persisted (not_not.mp hv) hagent
    refine .called hsent hcall ?_ ?_
    · show _ = final (handlePersisted ctx.host q.token q.operation) w
      unfold final
      cases handlePersisted ctx.host q.token q.operation w <;> rfl
    · show _ = responseTo ctx.host q.requestId
        (result (handlePersisted ctx.host q.token q.operation) w)
      unfold result
      cases handlePersisted ctx.host q.token q.operation w <;> rfl

theorem serveAgent_tidings (hsent : Sent ctx t q)
    (hchannel : t.ownerChannel = false)
    (hagent : q.operation.requiresOwner = false) :
    Tidings ctx t w (Daemon.serveAgent ctx w r q).2
      (Daemon.serveAgent ctx w r q).1 := by
  unfold Daemon.serveAgent
  split
  · rename_i id hop _
    split
    · exact .refused ⟨_, _, rfl⟩ rfl
    rename_i runtime _
    unfold ControlledCheckoutRuntime.execute
    cases hprep : runtime.prepare ctx.host ctx.serde w.state r q.token id with
    | error e => exact .refused ⟨_, _, rfl⟩ rfl
    | ok prepared =>
        obtain ⟨handoff, answers⟩ := prepared
        dsimp only
        refine .called hsent (.controlled hchannel hop hprep) ?_ ?_
        · show _ = final (executeControlledCheckoutPersisted ctx.host q.token
            id (handoff.asExecutor ctx.host answers)) w
          unfold final
          cases executeControlledCheckoutPersisted ctx.host q.token id
            (handoff.asExecutor ctx.host answers) w <;> rfl
        · show _ = responseTo ctx.host q.requestId (result
            (executeControlledCheckoutPersisted ctx.host q.token id
              (handoff.asExecutor ctx.host answers)) w)
          unfold result
          cases executeControlledCheckoutPersisted ctx.host q.token id
            (handoff.asExecutor ctx.host answers) w <;> rfl
  · exact handleRpcPersisted_tidings hsent fun _ => hagent

/-- How a step goes on telling: what the thread tells is kept, unless it is
    too long to be sent; or it tells nothing yet, or it begins to. -/
inductive Telling (ctx : ServeContext) (t : Thread) (w w' : World)
    (stage : Stage) : Prop where
  | kept (hpast : t.stage.isPast = true) (hw : w' = w)
      (htells : ∀ response, t.stage.Tells response →
        stage.Tells response ∨ stage.Tells oversize)
  | silent (hnot : t.stage.isPast = false) (hw : w' = w)
      (hstage : stage.isPast = false ∨ ∃ e, t.arrival = .error e)
  | first {response : RpcResponse} (hnot : t.stage.isPast = false)
      (htells : stage.Tells response)
      (htidings : Tidings ctx t w w' response)

/-- **WHAT A STEP TELLS**. -/
theorem ThreadStep.telling (h : ThreadStep ctx d i r t d')
    (hframed : Framed ctx d) (ht : d.threads[i]? = some t) :
    ∃ stage, d'.threads = (d.put i stage).threads
      ∧ Telling ctx t d.world d'.world stage := by
  have hsent : ∀ {q : RpcRequest}, t.stage.request = some q → Sent ctx t q :=
    fun hq => hframed.sent i t _ ht hq
  -- one case for each step: it says nothing yet, says its first response, or
  -- keeps the one it has
  cases h with
  | lost hs ha =>
      exact ⟨_, close_threads d i t none, .silent (by rw [hs]; rfl)
        (close_world ..) (Or.inr ⟨_, ha⟩)⟩
  | malformed hs _ _ =>
      exact ⟨_, rfl, .first (by rw [hs]; rfl) rfl (.refused ⟨_, _, rfl⟩ rfl)⟩
  | framed hs _ _ _ =>
      exact ⟨_, rfl, .silent (by rw [hs]; rfl) rfl (Or.inl rfl)⟩
  | turnedAway hs _ =>
      exact ⟨_, rfl, .first (by rw [hs]; rfl) rfl (.refused ⟨_, _, rfl⟩ rfl)⟩
  | servedOwner hs _ hchannel _ =>
      refine ⟨_, rfl, .first (by rw [hs]; rfl) rfl (handleRpcPersisted_tidings
        (hsent (by rw [hs]; rfl)) fun h => ?_)⟩
      rw [hchannel] at h
      cases h
  | letThrough hs _ _ _ =>
      exact ⟨_, rfl, .silent (by rw [hs]; rfl) rfl (Or.inl rfl)⟩
  | updated hs =>
      refine ⟨_, rfl, .kept (by rw [hs]; rfl) rfl fun response h => ?_⟩
      rw [hs] at h
      exact Or.inl h
  | asked hs =>
      refine ⟨_, rfl, .silent (by rw [hs]; rfl) rfl (Or.inl ?_)⟩
      unfold Daemon.askStage
      split
      · rfl
      · rfl
  | turnedUnknown hs =>
      exact ⟨_, rfl, .first (by rw [hs]; rfl) rfl (.refused ⟨_, _, rfl⟩ rfl)⟩
  | channel hs =>
      refine ⟨_, rfl, ?_⟩
      split
      · exact .silent (by rw [hs]; rfl) rfl (Or.inl rfl)
      · exact .first (by rw [hs]; rfl) rfl (.refused ⟨_, _, rfl⟩ rfl)
  | capability hs =>
      refine ⟨_, rfl, .silent (by rw [hs]; rfl) rfl (Or.inl ?_)⟩
      split
      · rfl
      · rfl
  | left hs =>
      exact ⟨_, rfl, .first (by rw [hs]; rfl) rfl (.refused ⟨_, _, rfl⟩ rfl)⟩
  | ownerOnly hs =>
      exact ⟨_, rfl, .first (by rw [hs]; rfl) rfl (.refused ⟨_, _, rfl⟩ rfl)⟩
  | servedAgent hs _ hagent =>
      exact ⟨_, rfl, .first (by rw [hs]; rfl) rfl (serveAgent_tidings
        (hsent (by rw [hs]; rfl))
        (hframed.agents i t ht (by rw [hs]; rfl)) hagent)⟩
  | dropped hs =>
      refine ⟨_, rfl, .kept (by rw [hs]; rfl) rfl fun response h => ?_⟩
      rw [hs] at h
      exact Or.inl h
  | parted hs =>
      refine ⟨_, rfl, .kept (by rw [hs]; rfl) rfl fun response h => ?_⟩
      rw [hs] at h
      exact Or.inl h
  | @answered response hs =>
      refine ⟨_, close_threads d i t _, .kept (by rw [hs]; rfl)
        (close_world ..) fun told h => ?_⟩
      rw [hs] at h
      obtain rfl : response = told := h
      -- a response that is too long goes out as another
      rcases writeResponse_line response with ⟨_, hline⟩ | ⟨_, hline⟩
      · exact Or.inl (hline.tells _)
      · exact Or.inr (hline.tells _)

/-- A connection that is turned away is told of a failure. -/
theorem accept_telling (ctx : ServeContext) (d : Daemon)
    (ownerChannel separate : Bool) (arrival : Except String (List UInt8))
    (departure : Except String Unit) :
    ∃ t : Thread, (d.accept ctx ownerChannel separate arrival
        departure).threads = d.threads ++ [t]
      ∧ (t.stage = .reading
        ∨ ∃ response, t.stage.Tells response ∧ response.IsFailure) := by
  unfold Daemon.accept
  dsimp only
  split
  · split
    · exact ⟨_, rfl, Or.inr ⟨_, busyLine_line.tells _, _, _, rfl⟩⟩
    · exact ⟨_, rfl, Or.inl rfl⟩
  · split
    · exact ⟨_, rfl, Or.inr ⟨_, identityLine_line.tells _, _, _, rfl⟩⟩
    · split
      · exact ⟨_, rfl, Or.inr ⟨_, busyLine_line.tells _, _, _, rfl⟩⟩
      · exact ⟨_, rfl, Or.inl rfl⟩

/-! ## What is told at the end -/

variable {owner : String} {w0 : World} {cs : List Call}
  {made : List (Nat × Call)} {response : RpcResponse}

/-- What a thread tells is true of the calls that were made: either it is a
    failure and the thread called nothing, or it is what the thread's call came
    to, unless that was too long to be sent. -/
inductive Told (ctx : ServeContext) (owner : String) (w0 : World)
    (cs : List Call) (made : List (Nat × Call)) (i : Nat) (t : Thread)
    (response : RpcResponse) : Prop where
  | refused (hfail : response.IsFailure) (hnone : ∀ m ∈ made, m.1 ≠ i)
  | called {before after : List (Nat × Call)} {c : Call} {w : World}
      {q : RpcRequest} (hmade : made = before ++ (i, c) :: after)
      (hrun : TreasuryRun ctx.host owner w0 (cs ++ before.map Prod.snd) w)
      (hsent : Sent ctx t q) (hmakes : Makes ctx t q c)
      (htold : response
          = responseTo ctx.host q.requestId (result (c.perform ctx.host) w)
        ∨ response = oversize)

theorem Told.same {t' : Thread} (h : Told ctx owner w0 cs made i t response)
    (hsame : SameConnection t t') :
    Told ctx owner w0 cs made i t' response := by
  cases h with
  | refused hfail hnone => exact .refused hfail hnone
  | called hmade hrun hsent hmakes htold =>
      exact .called hmade hrun (hsent.same hsame) (hmakes.same hsame) htold

/-- It stays true when another thread makes a call. -/
theorem Told.snoc {c : Call} (h : Told ctx owner w0 cs made i t response)
    (hij : j ≠ i) : Told ctx owner w0 cs (made ++ [(j, c)]) i t response := by
  cases h with
  | refused hfail hnone =>
      refine .refused hfail fun m hm => ?_
      rcases List.mem_append.mp hm with hm | hm
      · exact hnone m hm
      · obtain rfl := List.mem_singleton.mp hm
        exact hij
  | @called before after c' _ _ hmade hrun hsent hmakes htold =>
      have hlonger : made ++ [(j, c)]
          = before ++ (i, c') :: (after ++ [(j, c)]) := by
        rw [hmade, List.append_assoc, List.cons_append]
      exact .called hlonger hrun hsent hmakes htold

/-- It stays true when it is not sent because it is too long. -/
theorem Told.tooLong (h : Told ctx owner w0 cs made i t response) :
    Told ctx owner w0 cs made i t oversize := by
  cases h with
  | refused _ hnone => exact .refused ⟨_, _, rfl⟩ hnone
  | called hmade hrun hsent hmakes _ =>
      exact .called hmade hrun hsent hmakes (Or.inr rfl)

/-- The calls that threads made, with who made them, and that every thread
    tells the truth about its own. -/
structure Truthful (ctx : ServeContext) (owner : String) (w0 : World)
    (cs : List Call) (d : Daemon) (made : List (Nat × Call)) : Prop where
  runs : TreasuryRun ctx.host owner w0 (cs ++ made.map Prod.snd) d.world
  once : Made ctx d made
  told : ∀ (i : Nat) t bytes, d.threads[i]? = some t →
    t.arrival = .ok bytes → t.stage.isPast = true →
    ∃ response, t.stage.Tells response ∧ Told ctx owner w0 cs made i t response

/-- What the other threads tell stays true in a step of one, and so does what
    that one tells if its new stage tells the truth. -/
theorem Truthful.advance {made' : List (Nat × Call)} {stage : Stage}
    (h : Truthful ctx owner w0 cs d made)
    (ht : d.threads[i]? = some t)
    (hthreads : d'.threads = (d.put i stage).threads)
    (hruns : TreasuryRun ctx.host owner w0 (cs ++ made'.map Prod.snd) d'.world)
    (hmade : Made ctx d' made')
    (hkept : ∀ (j : Nat) u response, j ≠ i →
      Told ctx owner w0 cs made j u response →
      Told ctx owner w0 cs made' j u response)
    (hown : ∀ bytes, t.arrival = .ok bytes → stage.isPast = true →
      ∃ response, stage.Tells response
        ∧ Told ctx owner w0 cs made' i t response) :
    Truthful ctx owner w0 cs d' made' := by
  refine ⟨hruns, hmade, fun j u bytes hu ha hpast => ?_⟩
  rw [hthreads, put_getElem?] at hu
  by_cases hij : i = j
  · subst hij
    rw [if_pos rfl, ht] at hu
    cases hu
    obtain ⟨response, htells, htold⟩ := hown bytes ha hpast
    exact ⟨response, htells, htold.same ⟨rfl, rfl, rfl, rfl⟩⟩
  · rw [if_neg hij] at hu
    obtain ⟨response, htells, htold⟩ := h.told j u bytes hu ha hpast
    exact ⟨response, htells, hkept j u response (Ne.symm hij) htold⟩

/-- **EVERY STEP KEEPS THE TRUTH**. -/
theorem Truthful.step {a : Daemon.Action} (hframed : Framed ctx d)
    (h : Truthful ctx owner w0 cs d made) (hs : d.step ctx a = some d')
    (hfit : Fits d'.world) : ∃ made', Truthful ctx owner w0 cs d' made' := by
  cases a with
  | accept ownerChannel separate arrival departure =>
      obtain rfl := Option.some.inj hs
      obtain ⟨_, _, hworld, _⟩ :=
        accept_threads ctx d ownerChannel separate arrival departure
      obtain ⟨t, hthreads, hnew⟩ :=
        accept_telling ctx d ownerChannel separate arrival departure
      refine ⟨made, hworld ▸ h.runs, h.once.kept hs,
        fun j u bytes hu ha hpast => ?_⟩
      rw [hthreads] at hu
      -- an older connection, or the new one
      by_cases hj : j < d.threads.length
      · rw [List.getElem?_append_left hj] at hu
        exact h.told j u bytes hu ha hpast
      · rw [List.getElem?_append_right (Nat.not_lt.mp hj)] at hu
        obtain rfl := List.mem_singleton.mp (List.mem_of_getElem? hu)
        rcases hnew with hreading | ⟨response, htells, hfail⟩
        · rw [hreading] at hpast
          cases hpast
        · refine ⟨response, htells, .refused hfail fun m hm hmj => ?_⟩
          obtain ⟨_, _, hm, _⟩ := h.once.sent m hm
          exact hj (hmj ▸ (List.getElem?_eq_some_iff.mp hm).1)
  | advance i r =>
      obtain ⟨t, ht, hmove⟩ := Option.bind_eq_some_iff.mp hs
      obtain ⟨stage, hthreads, htelling⟩ :=
        (advance_threadStep hmove).telling hframed ht
      have hsame : d'.world = d.world → TreasuryRun ctx.host owner w0
          (cs ++ made.map Prod.snd) d'.world := fun hw => hw ▸ h.runs
      cases htelling with
      | kept hpast hw htells =>
          refine ⟨made, h.advance ht hthreads (hsame hw) (h.once.kept hs)
            (fun _ _ _ _ htold => htold) fun bytes ha _ => ?_⟩
          obtain ⟨response, hold, htold⟩ := h.told i t bytes ht ha hpast
          exact (htells response hold).elim (fun hnew => ⟨_, hnew, htold⟩)
            fun hnew => ⟨_, hnew, htold.tooLong⟩
      | silent _ hw hstage =>
          refine ⟨made, h.advance ht hthreads (hsame hw) (h.once.kept hs)
            (fun _ _ _ _ htold => htold) fun bytes ha hpast => ?_⟩
          rcases hstage with hnot | ⟨e, he⟩
          · rw [hnot] at hpast
            cases hpast
          · cases ha.symm.trans he
      | @first response hnot htells htidings =>
          cases htidings with
          | refused hfail hw =>
              refine ⟨made, h.advance ht hthreads (hsame hw) (h.once.kept hs)
                (fun _ _ _ _ htold => htold) fun bytes ha hpast => ?_⟩
              exact ⟨response, htells, .refused hfail (h.once.none ht hnot)⟩
          | @called q c hsent hmakes hw htold =>
              -- this thread's call comes after all those that were made
              have hnext : TreasuryRun ctx.host owner w0
                  (cs ++ (made ++ [(i, c)]).map Prod.snd) d'.world := by
                rw [List.map_append, ← List.append_assoc]
                rw [hw] at hfit ⊢
                exact ⟨h.runs.started, h.runs.calls.snoc c hfit⟩
              refine ⟨made ++ [(i, c)], h.advance ht hthreads hnext ?_
                (fun _ _ _ hne htold => htold.snoc (Ne.symm hne))
                fun bytes ha hpast => ⟨response, htells, ?_⟩⟩
              · have ht' : d'.threads[i]? = some { t with stage := stage } := by
                  rw [hthreads, put_getElem?, if_pos rfl, ht]
                  rfl
                exact h.once.snoc hs ht hnot ht' htells.isPast
                  (hsent.same ⟨rfl, rfl, rfl, rfl⟩) (hmakes.same ⟨rfl, rfl, rfl, rfl⟩)
              · exact .called rfl h.runs hsent hmakes (Or.inl htold)

theorem Serves.truthful {at_ : Int} {instant : Nat} {acts : List Daemon.Action}
    (hrun : TreasuryRun ctx.host owner w0 cs w)
    (hd : Serves ctx (.serve w at_ instant) acts d) :
    ∃ made, Truthful ctx owner w0 cs d made := by
  have hinv : Framed ctx d ∧ ∃ made, Truthful ctx owner w0 cs d made := by
    refine hd.invariant (I := fun d => Framed ctx d
      ∧ ∃ made, Truthful ctx owner w0 cs d made) ?_ ?_
    · have hstart : Serves ctx (.serve w at_ instant) [] (.serve w at_ instant) :=
        .start
      refine ⟨hstart.framed, [], ?_, ⟨List.nodup_nil, fun m hm => ?_⟩,
        fun i t bytes ht => ?_⟩
      · rw [List.map_nil, List.append_nil]
        exact hrun
      · cases hm
      · cases ht
    · rintro a d1 d2 ⟨hframed, made, htrue⟩ hs hfit
      exact ⟨hframed.step hs, htrue.step hframed hs hfit⟩
  exact hinv.2

/-- **A CLIENT GETS ITS CALL'S RESULT.**  Whatever the threads of a daemon do,
    a client that sent one frame makes of the line it is sent back an error,
    and its connection called nothing; or what ONE call of its own request came
    to, on the treasury that the calls before it led to, unless that was too
    long to be sent. -/
theorem clients_get_results {at_ : Int} {instant : Nat}
    {acts : List Daemon.Action} {sent : List UInt8}
    (hrun : TreasuryRun ctx.host owner w0 cs w)
    (hd : Serves ctx (.serve w at_ instant) acts d)
    (ht : d.threads[i]? = some t) (hs : t.stage = .closed (some sent))
    (harrival : t.arrival = .ok (requestFrame q)) (hq : q.operation.Ranged)
    (hin : ctx.serde.parse (requestFrame q)
      = .ok (reread (Encode.rpcRequest q)))
    (hout : ∀ response, IsLine response sent →
      ctx.serde.parse sent = .ok (reread (Encode.rpcResponse response))) :
    ∃ made, TreasuryRun ctx.host owner w0 (cs ++ made.map Prod.snd) d.world
      ∧ Made ctx d made
      ∧ ((∃ e, readAnswer ctx.serde sent = .error e ∧ ∀ m ∈ made, m.1 ≠ i)
        ∨ ∃ before c after w₁, made = before ++ (i, c) :: after
          ∧ TreasuryRun ctx.host owner w0 (cs ++ before.map Prod.snd) w₁
          ∧ Makes ctx t q c
          ∧ (readAnswer ctx.serde sent
              = told ctx.host (result (c.perform ctx.host) w₁)
            ∨ readAnswer ctx.serde sent
              = .error "response exceeds the broker frame limit")) := by
  obtain ⟨made, htrue⟩ := hd.truthful hrun
  obtain ⟨response, hline, htold⟩ :=
    htrue.told i t _ ht harrival (by rw [hs]; rfl)
  rw [hs] at hline
  refine ⟨made, htrue.runs, htrue.once, ?_⟩
  cases htold with
  | refused hfail hnone =>
      obtain ⟨id, error, rfl⟩ := hfail
      exact Or.inl ⟨error, readAnswer_line hline (hout _ hline), hnone⟩
  | @called before after c w₁ q' hmade hcalled hsent hmakes htold =>
      obtain rfl := requestFrame_sent hq harrival hin hsent
      refine Or.inr ⟨before, c, after, w₁, hmade, hcalled, hmakes, ?_⟩
      rcases htold with rfl | rfl
      · exact Or.inl (readAnswer_responseTo hline (hout _ hline))
      · exact Or.inr (readAnswer_line hline (hout _ hline))

/-- What the owner is told when the treasury is stopped. -/
def stopData : Json := Json.mkObj [("emergency_stop", .bool true),
  ("invalidated_sessions", .num 1),
  ("pending_operations_resume_automatically", .bool false)]

/-- The answer to the stop. -/
def stopAnswer : RpcResponse := .success "r" stopData

/-- A daemon and a client whose library reads the one request, and of anything
    else the one response. -/
def stopOverSocket : ServeContext :=
  { plainContext stopFrame with
    serde := { readsRequest stopFrame with
      parse := fun bytes => if bytes = requestFrame stopFrame
        then .ok (reread (Encode.rpcRequest stopFrame))
        else .ok (reread (Encode.rpcResponse stopAnswer)) } }

theorem stopOverSocket_parse (bytes : List UInt8) :
    stopOverSocket.serde.parse bytes = if bytes = requestFrame stopFrame
      then .ok (reread (Encode.rpcRequest stopFrame))
      else .ok (reread (Encode.rpcResponse stopAnswer)) := rfl

/-- The client connects and its thread goes all the way. -/
def stopSteps : List Daemon.Action :=
  .accept true true (.ok (requestFrame stopFrame)) (.ok ⟨⟩)
    :: List.replicate 4 (.advance 0 plainReadings)

/-- The bytes a thread sent and what it had read. -/
def lastSent (t : Thread) : Option (List UInt8 × List UInt8) :=
  match t.arrival, t.stage with
  | .ok bytes, .closed (some sent) => some (bytes, sent)
  | _, _ => none

/-- The owner stops the treasury from the command line, and is told so. -/
theorem clients_get_results_stop : ∃ owner w0 w d made,
    TreasuryRun stillHost owner w0 (opening smallPurchase owner) w
      ∧ Serves stopOverSocket (.serve w 1000 0) stopSteps d
      ∧ TreasuryRun stillHost owner w0 (opening smallPurchase owner
        ++ List.map Prod.snd made) d.world
      ∧ Made stopOverSocket d made ∧ (∃ m ∈ made, m.1 = 0)
      ∧ readAnswer stopOverSocket.serde (writeResponse stopAnswer)
        = .ok (value stopData) := by
  have h : tryRun stillHost ⟨100000, "CAD"⟩ (opening smallPurchase) (fun w =>
      (runActions stopOverSocket (.serve w 1000 0) stopSteps).any fun d =>
        (d.threads[0]?.bind lastSent)
          == some (requestFrame stopFrame, writeResponse stopAnswer)) = true := by
    decide +kernel
  obtain ⟨owner, w0, w, hrun, hserves⟩ := tryRun_run h
  obtain ⟨d, hd, hlast⟩ := (Option.any_eq_true _ _).mp hserves
  have hd := runActions_serves .start hd
  obtain ⟨t, ht, hlast⟩ := Option.bind_eq_some_iff.mp (eq_of_beq hlast)
  obtain ⟨harrival, hs⟩ : t.arrival = .ok (requestFrame stopFrame)
      ∧ t.stage = .closed (some (writeResponse stopAnswer)) := by
    unfold lastSent at hlast
    split at hlast
    · rename_i ha hs
      cases hlast
      exact ⟨ha, hs⟩
    · cases hlast
  have hother : writeResponse stopAnswer ≠ requestFrame stopFrame := by
    decide +kernel
  have hline : IsLine stopAnswer (writeResponse stopAnswer) := by
    refine (writeResponse_line stopAnswer).elim And.right fun hlong => ?_
    refine absurd hlong.1 ?_
    decide +kernel
  have hparse : stopOverSocket.serde.parse (writeResponse stopAnswer)
      = .ok (reread (Encode.rpcResponse stopAnswer)) := by
    rw [stopOverSocket_parse, if_neg hother]
  have hreads : readAnswer stopOverSocket.serde (writeResponse stopAnswer)
      = .ok (value stopData) := by
    rw [readAnswer_line hline hparse]
    rfl
  have hstill : TreasuryRun stopOverSocket.host owner w0 _ w := hrun
  obtain ⟨made, hruns, hmade, htold⟩ := clients_get_results hstill hd ht hs
    harrival trivial (by rw [stopOverSocket_parse, if_pos rfl])
    fun response hresponse => by
      have hsame := hline.text.symm.trans hresponse.text
      rw [← Json.render_injective (List.append_cancel_right hsame)]
      exact hparse
  refine ⟨owner, w0, w, d, made, hrun, hd, hruns, hmade, ?_, hreads⟩
  rcases htold with ⟨e, he, _⟩ | ⟨before, c, after, _, rfl, _⟩
  · cases hreads.symm.trans he
  · exact ⟨(0, c), List.mem_append_right _ (List.mem_cons_self ..), rfl⟩

end Treasury
