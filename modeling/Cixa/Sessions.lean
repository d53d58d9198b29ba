import Cixa.Runs

/-! # Sessions — identifiers that were drawn before

    Agents are stored under drawn ids, and every session that an agent or an
    intent names was drawn.  So with FRESH draws a new agent replaces no
    other, and an agent that is armed, rotated or stopped names a session
    that no stored intent has. -/

namespace Treasury

open CixaData CixaHost Transition

variable {host : Host} {w w' : World} {l : Label} {id : String}

/-! ## Two kinds of sessions -/

/-- A session among the first draws: of an agent that may spend, or of one
    that was stopped. -/
def SessionDrawn (host : Host) (n : Nat) (session : String) : Prop :=
  ∃ k, k < n ∧ (session = idOfDraw host "session" k
    ∨ session = idOfDraw host "stopped-session" k)

theorem SessionDrawn.mono {m n : Nat} {session : String}
    (h : SessionDrawn host m session) (hle : m ≤ n) :
    SessionDrawn host n session := by
  obtain ⟨k, hk, hs⟩ := h
  exact ⟨k, Nat.lt_of_lt_of_le hk hle, hs⟩

/-- A session drawn between two worlds. -/
def SessionIn (host : Host) (w w' : World) (session : String) : Prop :=
  DrawnIn host w w' "session" session
    ∨ DrawnIn host w w' "stopped-session" session

theorem SessionIn.drawn {session : String} (h : SessionIn host w w' session) :
    SessionDrawn host w'.drawn session := by
  rcases h with ⟨k, _, hk, hs⟩ | ⟨k, _, hk, hs⟩
  · exact ⟨k, hk, Or.inl hs⟩
  · exact ⟨k, hk, Or.inr hs⟩

/-- The two kinds of sessions have different names. -/
theorem session_ne_stopped (i j : Nat) :
    idOfDraw host "session" i ≠ idOfDraw host "stopped-session" j := by
  intro h
  unfold idOfDraw at h
  have hlist := congrArg (fun text => text.toList.take 2) h
  simp only [String.toList_append] at hlist
  have hleft : "session".toList = 's' :: 'e' :: "ssion".toList := by decide
  have hright : "stopped-session".toList
      = 's' :: 't' :: "opped-session".toList := by decide
  rw [hleft, hright] at hlist
  exact nomatch (List.cons.inj (List.cons.inj hlist).2).1

/-- **A NEW SESSION** is none that was drawn before. -/
theorem SessionIn.ne_before {session old : String}
    (h : SessionIn host w w' session) (hfresh : FreshBelow host w'.drawn)
    (hold : SessionDrawn host w.drawn old) : old ≠ session := by
  rintro rfl
  obtain ⟨k, hk, hs⟩ := hold
  rcases h with ⟨i, hlo, hhi, hid⟩ | ⟨i, hlo, hhi, hid⟩
  · rcases hs with hs | hs
    · have := hfresh.idOfDraw (by omega) hhi (hs.symm.trans hid)
      omega
    · exact session_ne_stopped _ _ (hid.symm.trans hs)
  · rcases hs with hs | hs
    · exact session_ne_stopped _ _ (hs.symm.trans hid)
    · have := hfresh.idOfDraw (by omega) hhi (hs.symm.trans hid)
      omega

/-! ## What every world has drawn -/

/-- The ids of the agents and the sessions of agents and intents were
    drawn. -/
structure AllDrawn (host : Host) (w : World) : Prop where
  agents : ∀ id r, w.state.agents.get? id = some r →
    ∃ k, k < w.drawn ∧ id = idOfDraw host "agent" k
  sessions : ∀ id r, w.state.agents.get? id = some r →
    SessionDrawn host w.drawn r.brokerSessionId
  intents : ∀ id i, w.state.intents.get? id = some i →
    SessionDrawn host w.drawn i.brokerSessionId

/-- An edit keeps the session of an agent or draws a new one. -/
theorem Edited.session {r r' : AgentRecord} {edit : AgentEdit}
    (h : Edited host w w' r edit r') :
    r'.brokerSessionId = r.brokerSessionId
      ∨ SessionIn host w w' r'.brokerSessionId := by
  cases h with
  | arm _ _ _ _ _ hid => exact Or.inr (Or.inl hid)
  | rotate _ _ _ _ _ _ hid => exact Or.inr (Or.inl hid)
  | stop hid => exact Or.inr (Or.inr hid)
  | _ => exact Or.inl rfl

theorem Change.allDrawn (h : Change host l w w') (hw : AllDrawn host w) :
    AllDrawn host w' := by
  have hdrawn := h.advance.drawn
  have hold : ∀ id r, w.state.agents.get? id = some r →
      (∃ k, k < w'.drawn ∧ id = idOfDraw host "agent" k)
        ∧ SessionDrawn host w'.drawn r.brokerSessionId := by
    intro id r hr
    obtain ⟨k, hk, hid⟩ := hw.agents id r hr
    exact ⟨⟨k, by omega, hid⟩, (hw.sessions id r hr).mono hdrawn⟩
  -- A new agent is drawn by this call; an edited one keeps its session or draws
  -- a new one.
  have hagents : ∀ id r, w'.state.agents.get? id = some r →
      (∃ k, k < w'.drawn ∧ id = idOfDraw host "agent" k)
        ∧ SessionDrawn host w'.drawn r.brokerSessionId := by
    intro id r hr
    rcases h.agents with heq | ⟨id', _, _, r', _, hid, hn, heq⟩
      | ⟨id', _, r0, r', _, hr0, he, heq⟩
    · exact hold id r (heq ▸ hr)
    · rw [heq, SortedMap.get?_insert] at hr
      split at hr
      · rename_i hsame
        rw [← Option.some.inj hr, hsame, ← hid]
        exact ⟨hn.id.below, SessionIn.drawn (Or.inl hn.session)⟩
      · exact hold id r hr
    · rw [heq, SortedMap.get?_insert] at hr
      split at hr
      · rename_i hsame
        obtain ⟨hid, hses⟩ := hold id' r0 hr0
        rw [← Option.some.inj hr, hsame]
        refine ⟨hid, ?_⟩
        rcases he.session with hkeep | hnew
        · rw [hkeep]
          exact hses
        · exact hnew.drawn
      · exact hold id r hr
  refine ⟨fun id r hr => (hagents id r hr).1, fun id r hr => (hagents id r hr).2,
    ?_⟩
  intro id i hi
  have hsame : ∀ id i, w.state.intents.get? id = some i →
      SessionDrawn host w'.drawn i.brokerSessionId := fun id i hi =>
    (hw.intents id i hi).mono hdrawn
  cases h.intents with
  | none hs _ => exact hsame id i (hs ▸ hi)
  | new _ hn hs _ =>
      rw [hs, SortedMap.get?_insert] at hi
      split at hi
      · obtain ⟨r, _, hr, _, hses, _⟩ := hn.agent
        rw [← Option.some.inj hi, hses]
        exact (hw.sessions _ r hr).mono hdrawn
      · exact hsame id i hi
  | next hi0 hc _ hs _ =>
      rw [hs, SortedMap.get?_insert] at hi
      split at hi
      · rw [← Option.some.inj hi, hc.brokerSessionId]
        exact hsame _ _ hi0
      · exact hsame id i hi

theorem AllDrawn.restore {a b : World} (h : AllDrawn host a)
    (hadv : Advance a b) : AllDrawn host (a.restoreState b) := by
  have hdrawn := hadv.drawn
  refine ⟨fun id r hr => ?_, fun id r hr => (h.sessions id r hr).mono hdrawn,
    fun id i hi => (h.intents id i hi).mono hdrawn⟩
  obtain ⟨k, hk, hid⟩ := h.agents id r hr
  exact ⟨k, Nat.lt_of_lt_of_le hk hdrawn, hid⟩

theorem Path.allDrawn {allowed : Label → Prop} (h : Path host allowed w w')
    (hw : AllDrawn host w) : AllDrawn host w' :=
  h.invariant (fun _ _ _ _ hc ha => hc.allDrawn ha)
    (fun _ _ hp ha _ => ha.restore hp.advance) hw

theorem Started.allDrawn {balance : Money} {token : String}
    (h : Started host balance token w) : AllDrawn host w := by
  obtain ⟨_, _, _, _, _, _, _, _, hs⟩ := h.state
  refine ⟨fun id r hr => ?_, fun id r hr => ?_, fun id i hi => ?_⟩
  all_goals
    rw [hs] at *
    contradiction

theorem TreasuryRun.allDrawn {token : String} {w0 : World} {cs : List Call}
    (h : TreasuryRun host token w0 cs w) : AllDrawn host w := by
  obtain ⟨balance, hs⟩ := h.balance
  exact h.path.allDrawn hs.allDrawn

/-- A new agent's id is not stored yet. -/
theorem NewAgent.unstored {token : String} {p : Policy} {r : AgentRecord}
    (hn : NewAgent host w w' token p r) (hw : AllDrawn host w)
    (hfresh : FreshBelow host w'.drawn) : w.state.agents.get? r.id = none := by
  cases hget : w.state.agents.get? r.id with
  | none => rfl
  | some r0 => exact absurd rfl (hn.id.ne_before hfresh (hw.agents _ _ hget))

end Treasury
