import Cixa.Knowing
import Cixa.JsonText

/-! # Answers — every connection is answered, and with one line

    A thread waits for the treasury at most, and only while the owner's
    request is served; whatever it does brings its connection closer to the
    end.  What it sends in the end is ONE line within the limit: the compact
    text of a response holds no line feed, and a response that is too long is
    replaced.  Only a connection that cannot be read, or not be written to, is
    over without its line. -/

namespace Treasury

open CixaData CixaHost Outcome Transition Admission Codec

variable {host : Host} {ctx : ServeContext} {d d' : Daemon} {i j : Nat}
  {r : Readings} {t : Thread} {w : World} {q : RpcRequest}

/-! ## Lines -/

/-- A response as it is sent: one line within the limit. -/
structure IsLine (response : RpcResponse) (sent : List UInt8) : Prop where
  text : sent = Json.render (Encode.rpcResponse response) ++ [10]
  limit : sent.length ≤ maxFrameBytes

/-- A text without a line feed is read up to the one that ends it. -/
theorem readUntil_line {text : List UInt8} (h : 10 ∉ text)
    (rest : List UInt8) : readUntil 10 (text ++ 10 :: rest) = text ++ [10] := by
  induction text with
  | nil => rfl
  | cons b text ih =>
      rw [List.cons_append, readUntil, if_neg, ih, List.cons_append]
      · exact fun hb => h (List.mem_cons_of_mem _ hb)
      · rintro rfl
        exact h (List.mem_cons_self ..)

/-- The compact text of a document is no line feed away from its end. -/
theorem render_no_line_feed (j : Json) : 10 ∉ Json.render j := by
  intro hmem
  have hprint := Json.render_printable j 10 hmem
  revert hprint
  decide

/-- **A LINE IS A FRAME**, whatever follows it. -/
theorem readFrame_line {j : Json} {rest : List UInt8}
    (h : (Json.render j).length + 1 ≤ maxFrameBytes) :
    readFrame (Json.render j ++ 10 :: rest) = Json.render j ++ [10]
      ∧ isFrame (Json.render j ++ [10]) := by
  constructor
  · have htake : (Json.render j ++ 10 :: rest).take (maxFrameBytes + 1)
        = Json.render j ++ 10 :: rest.take (maxFrameBytes
          - (Json.render j).length) := by
      rw [List.take_append, List.take_of_length_le (by omega)]
      have hlen : maxFrameBytes + 1 - (Json.render j).length
          = maxFrameBytes - (Json.render j).length + 1 := by omega
      rw [hlen, List.take_succ_cons]
    unfold readFrame
    rw [htake]
    exact readUntil_line (render_no_line_feed j) _
  · refine ⟨?_, ?_⟩
    · rw [List.length_append]
      exact h
    · rw [List.getLast?_append]
      rfl

/-- The response that is sent for one that is too long. -/
def oversize : RpcResponse :=
  .failure "oversize" "response exceeds the broker frame limit"

/-- **WHAT IS SENT** is the response, or that it was too long. -/
theorem writeResponse_line (response : RpcResponse) :
    ((Json.render (Encode.rpcResponse response)).length + 1 ≤ maxFrameBytes
        ∧ IsLine response (writeResponse response))
      ∨ (maxFrameBytes < (Json.render (Encode.rpcResponse response)).length + 1
        ∧ IsLine oversize (writeResponse response)) := by
  unfold writeResponse
  dsimp only
  split
  · rename_i hlong
    refine Or.inr ⟨hlong, rfl, ?_⟩
    rw [List.length_append, Json.size_eq]
    decide +kernel
  · rename_i hfits
    refine Or.inl ⟨Nat.not_lt.mp hfits, rfl, ?_⟩
    rw [List.length_append]
    exact Nat.not_lt.mp hfits

theorem busyLine_line :
    IsLine (.failure "busy" "broker is busy") Daemon.busyLine := by
  constructor
  · decide +kernel
  · decide +kernel

theorem identityLine_line : IsLine (.failure "identity"
    "manual provider requires a separate agent OS identity")
    Daemon.identityLine := by
  constructor
  · decide +kernel
  · decide +kernel

/-- How a connection ended: it could not be read, or not be written to, or it
    was sent a line. -/
def Ending (t : Thread) (sent : Option (List UInt8)) : Prop :=
  (sent = none ∧ ((∃ e, t.arrival = .error e) ∨ ∃ e, t.departure = .error e))
    ∨ ∃ bytes response, sent = some bytes ∧ IsLine response bytes

/-- A line is sent, unless writing it fails. -/
theorem IsLine.ending {response : RpcResponse} {line : List UInt8}
    (h : IsLine response line) (t : Thread) :
    Ending t (Daemon.delivered t.departure line) := by
  cases hd : t.departure with
  | ok _ => exact Or.inr ⟨line, response, rfl, h⟩
  | error e => exact Or.inl ⟨rfl, Or.inr ⟨e, hd⟩⟩

/-- A connection that is turned away is sent a line. -/
theorem accept_ending {ownerChannel separate : Bool}
    {arrival : Except String (List UInt8)} {departure : Except String Unit}
    {sent : Option (List UInt8)} (ht : (d.accept ctx ownerChannel separate
      arrival departure).threads[j]? = some t)
    (hs : t.stage = .closed sent) : d.threads[j]? = some t ∨ Ending t sent := by
  have hnew : ∀ {u : Thread}, (d.threads ++ [u])[j]? = some t →
      d.threads[j]? = some t ∨ t = u := by
    intro u hu
    by_cases hj : j < d.threads.length
    · rw [List.getElem?_append_left hj] at hu
      exact Or.inl hu
    · rw [List.getElem?_append_right (Nat.not_lt.mp hj)] at hu
      exact Or.inr (List.mem_singleton.mp (List.mem_of_getElem? hu))
  have hbusy : ∀ {u : Thread},
      u.stage = .closed (Daemon.delivered u.departure Daemon.busyLine) →
      t = u → Ending t sent := by
    rintro u hu rfl
    cases hs.symm.trans hu
    exact busyLine_line.ending t
  have hreading : ∀ {u : Thread}, u.stage = .reading → t = u →
      Ending t sent := by
    rintro u hu rfl
    cases hs.symm.trans hu
  unfold Daemon.accept at ht
  dsimp only at ht
  split at ht
  · split at ht
    · exact (hnew ht).imp_right (hbusy rfl)
    · exact (hnew ht).imp_right (hreading rfl)
  · split at ht
    · refine (hnew ht).imp_right ?_
      rintro rfl
      cases hs
      exact identityLine_line.ending _
    · split at ht
      · exact (hnew ht).imp_right (hbusy rfl)
      · exact (hnew ht).imp_right (hreading rfl)

/-- Every connection that is over ended properly. -/
def EndsProperly (d : Daemon) : Prop :=
  ∀ (j : Nat) t sent, d.threads[j]? = some t → t.stage = .closed sent →
    Ending t sent

theorem EndsProperly.step {a : Daemon.Action} (hd : EndsProperly d)
    (h : d.step ctx a = some d') : EndsProperly d' := by
  intro j t sent ht hs
  cases a with
  | accept ownerChannel separate arrival departure =>
      obtain rfl := Option.some.inj h
      exact (accept_ending ht hs).elim (fun hold => hd j t sent hold hs)
        (fun hend => hend)
  | advance i r =>
      obtain ⟨u, hu, hmove⟩ := Option.bind_eq_some_iff.mp h
      have hstep := advance_threadStep hmove
      have hother : ∀ {stage : Stage}, d'.threads = (d.put i stage).threads →
          (stage = .closed sent → Ending { u with stage := stage } sent) →
          Ending t sent := by
        intro stage hthreads hend
        rw [hthreads, put_getElem?] at ht
        by_cases hij : i = j
        · subst hij
          rw [if_pos rfl, hu] at ht
          cases ht
          exact hend hs
        · rw [if_neg hij] at ht
          exact hd j t sent ht hs
      obtain ⟨_, ⟨stage, hlive, hthreads, _⟩ | ⟨sent', rfl, hend⟩⟩ := hstep.live
      · refine hother hthreads fun hclosed => ?_
        rw [hclosed] at hlive
        cases hlive
      · refine hother (close_threads d i u sent') fun hclosed => ?_
        cases hclosed
        rcases hend with ⟨hnone, hlost⟩ | ⟨response, _, rfl⟩
        · exact Or.inl ⟨hnone, Or.inl hlost⟩
        · rcases writeResponse_line response with ⟨_, hline⟩ | ⟨_, hline⟩
          · exact hline.ending _
          · exact hline.ending _

/-! ## Progress -/

/-- How many steps a thread has left, at most. -/
def Stage.rank : Stage → Nat
  | .reading => 9
  | .gating _ => 8
  | .asking _ => 7
  | .unknown _ => 6
  | .known _ => 6
  | .halfway _ => 5
  | .leaving _ => 4
  | .admitted _ => 4
  | .served _ _ => 3
  | .parting _ => 2
  | .updating _ _ => 2
  | .writing _ => 1
  | .closed _ => 0

/-- A step brings its thread closer to the end. -/
theorem ThreadStep.rank (h : ThreadStep ctx d i r t d')
    (ht : d.threads[i]? = some t) :
    ∃ t', d'.threads[i]? = some t' ∧ t'.stage.rank < t.stage.rank := by
  -- each step moves the thread to another stage, and only that
  have hput : ∀ {stage : Stage}, d'.threads = (d.put i stage).threads →
      stage.rank < t.stage.rank →
      ∃ t', d'.threads[i]? = some t' ∧ t'.stage.rank < t.stage.rank := by
    intro stage hthreads hlt
    refine ⟨{ t with stage := stage }, ?_, hlt⟩
    rw [hthreads, put_getElem?, if_pos rfl, ht]
    rfl
  cases h with
  | lost hs _ =>
      exact hput (close_threads d i t none) (by rw [hs]; simp [Stage.rank])
  | answered hs =>
      exact hput (close_threads d i t _) (by rw [hs]; simp [Stage.rank])
  | @asked q hs =>
      have hthreads : (d.put i (d.askStage ctx r q)).threads = _ := rfl
      refine hput hthreads ?_
      rw [hs]
      unfold Daemon.askStage
      split
      · simp [Stage.rank]
      · simp [Stage.rank]
  | channel hs =>
      refine hput rfl ?_
      rw [hs]
      split
      · simp [Stage.rank]
      · simp [Stage.rank]
  | capability hs =>
      refine hput rfl ?_
      rw [hs]
      split
      · simp [Stage.rank]
      · simp [Stage.rank]
  | malformed hs _ _ => exact hput rfl (by rw [hs]; simp [Stage.rank])
  | framed hs _ _ _ => exact hput rfl (by rw [hs]; simp [Stage.rank])
  | turnedAway hs _ => exact hput rfl (by rw [hs]; simp [Stage.rank])
  | servedOwner hs _ _ _ => exact hput rfl (by rw [hs]; simp [Stage.rank])
  | letThrough hs _ _ _ => exact hput rfl (by rw [hs]; simp [Stage.rank])
  | servedAgent hs _ _ => exact hput rfl (by rw [hs]; simp [Stage.rank])
  | _ hs => exact hput rfl (by rw [hs]; simp [Stage.rank])

/-- A thread that cannot take a step waits for the treasury, or is over. -/
theorem advance_none (h : d.advance ctx i r t = none) :
    t.stage.isLive = false ∨ d.holder.isSome = true := by
  unfold Daemon.advance at h
  split at h
  · split at h <;> cases h
  · split at h
    · rename_i hheld
      exact Or.inr hheld
    · split at h
      · cases h
      · split at h <;> cases h
  · cases h
  · cases h
  · cases h
  · cases h
  · cases h
  · cases h
  · split at h
    · cases h
    · split at h
      · rename_i hheld
        exact Or.inr hheld
      · cases h
  · cases h
  · cases h
  · cases h
  · rename_i hs
    rw [hs]
    exact Or.inl rfl

/-- **EVERY CONNECTION IS ANSWERED**: whatever the threads of a daemon do, a
    connection that is over was sent one line within the limit that holds a
    response, unless it could not be read or not be written to.  One that is
    not over is at most nine steps from its end, and takes the next whenever it
    may; it may not only while another thread holds the treasury for the owner,
    which lets go of it with its next step. -/
theorem connections_are_answered {owner : String} {w0 : World} {cs : List Call}
    {at_ : Int} {instant : Nat} {acts : List Daemon.Action}
    (hrun : TreasuryRun ctx.host owner w0 cs w)
    (hd : Serves ctx (.serve w at_ instant) acts d)
    (ht : d.threads[i]? = some t) :
    (∀ sent, t.stage = .closed sent → Ending t sent)
      ∧ t.stage.rank ≤ 9
      ∧ (t.stage.isLive = true → ∀ r,
        (∃ d' t', d.step ctx (.advance i r) = some d'
            ∧ d'.threads[i]? = some t' ∧ t'.stage.rank < t.stage.rank)
          ∨ ∃ j, j ≠ i ∧ d.holder = some j ∧ ∀ r', ∃ d',
            d.step ctx (.advance j r') = some d' ∧ d'.holder = none) := by
  have hanswered : EndsProperly d := by
    refine hd.invariant ?_ fun _ _ _ h hs _ => h.step hs
    intro j u sent hu
    cases hu
  refine ⟨fun sent hs => hanswered i t sent ht hs, ?_, fun hlive r => ?_⟩
  · cases t.stage <;> simp [Stage.rank]
  · have hstep : ∀ {j u r'}, d.threads[j]? = some u →
        d.step ctx (.advance j r') = d.advance ctx j r' u := by
      intro j u r' hu
      show d.threads[j]?.bind _ = _
      rw [hu]
      rfl
    -- a thread that cannot step waits for the holder of the treasury
    cases hnext : d.advance ctx i r t with
    | some d' =>
        obtain ⟨t', ht', hrank⟩ := (advance_threadStep hnext).rank ht
        exact Or.inl ⟨d', t', (hstep ht).trans hnext, ht', hrank⟩
    | none =>
        refine Or.inr ?_
        have hheld := (advance_none hnext).resolve_left (by rw [hlive]; decide)
        obtain ⟨j, hj⟩ := Option.isSome_iff_exists.mp hheld
        obtain ⟨u, response, last, _, hu, hs⟩ := (hd.informed hrun).held j hj
        have hlets : ∀ r', ∃ d', d.advance ctx j r' u = some d'
            ∧ d'.holder = none := by
          intro r'
          unfold Daemon.advance
          rw [hs]
          exact ⟨_, rfl, rfl⟩
        refine ⟨j, ?_, hj, fun r' => ?_⟩
        · rintro rfl
          obtain rfl := Option.some.inj (hu.symm.trans ht)
          obtain ⟨d', hd', _⟩ := hlets r
          cases hd'.symm.trans hnext
        · rw [hstep hu]
          exact hlets r'

/-- The owner's request to stop is answered with a line. -/
theorem connections_are_answered_stop : ∃ owner w0 w d t bytes response,
    TreasuryRun stillHost owner w0 (opening smallPurchase owner) w
      ∧ Serves (plainContext stopFrame) (.serve w 1000 0) (oneConnection true 4)
        d
      ∧ d.threads[0]? = some t ∧ t.stage = .closed (some bytes)
      ∧ IsLine response bytes := by
  have h : tryRun stillHost ⟨100000, "CAD"⟩ (opening smallPurchase) (fun w =>
      (runActions (plainContext stopFrame) (.serve w 1000 0)
        (oneConnection true 4)).any fun d => decide
          (d.threads.map (fun t => t.stage.isLive) = [false]
            ∧ d.threads.map (fun t => t.arrival.isOk) = [true]
            ∧ d.threads.map (fun t => t.departure.isOk) = [true])) = true := by
    decide +kernel
  obtain ⟨owner, w0, w, hrun, hserves⟩ := tryRun_run h
  obtain ⟨d, hd, hcheck⟩ := (Option.any_eq_true _ _).mp hserves
  obtain ⟨hover, hread, hwritten⟩ := of_decide_eq_true hcheck
  obtain ⟨t, hthreads⟩ : ∃ t, d.threads = [t] := by
    have hlen := congrArg List.length hover
    rw [List.length_map] at hlen
    exact List.length_eq_one_iff.mp hlen
  have ht : d.threads[0]? = some t := by rw [hthreads]; rfl
  rw [hthreads] at hover hread hwritten
  have hd := runActions_serves .start hd
  have hstill : TreasuryRun (plainContext stopFrame).host owner w0 _ w := hrun
  obtain ⟨hend, _⟩ := connections_are_answered hstill hd ht
  cases hs : t.stage with
  | closed sent =>
      rcases hend sent hs with ⟨_, ⟨e, ha⟩ | ⟨e, ha⟩⟩
        | ⟨bytes, response, rfl, hline⟩
      · rw [List.map_singleton, ha] at hread
        cases hread
      · rw [List.map_singleton, ha] at hwritten
        cases hwritten
      · exact ⟨owner, w0, w, d, t, bytes, response, hrun, hd, ht, hs, hline⟩
  | _ =>
      rw [List.map_singleton, hs] at hover
      cases hover

end Treasury
