import Trampoline.Proofs.Parties.Holdings
import Trampoline.Proofs.Machine.Cancellation

/-!
# Worlds of a party

In the world of all parties, a party finds what it finds in a world of its own: its part of the
state of the host, its connections and its bridges.  All that the engine does to the world for a
party leaves it so, and so does what others do.

Main definitions and results:

- Definition `Connections.AgreeOn`: two tables that are the same for some connections.
- Definition `Holdings.Like`: two worlds that are the same for a party.
- Theorems `Holdings.Like.answer`, `arm`, `followSwitch`, `release`: what is done for the party in
  both.
- Theorems `Holdings.Like.skipBridges`, `skipConnections`: numbers that others have been given.
-/

namespace Trampoline

variable {S : Closures} {σ ι : Type}

/-! ## Tables of connections -/

namespace Connections

variable {τ : Type} {p : Connection → Prop} {t t' : Connections τ}

/-- Some connections have the same state in two tables. -/
def AgreeOn (p : Connection → Prop) (t t' : Connections τ) : Prop :=
  ∀ c, p c → t'.state? c = t.state? c

/-- A table is the same as itself. -/
theorem AgreeOn.refl (p : Connection → Prop) (t : Connections τ) : AgreeOn p t t :=
  fun _ _ => rfl

/-- Such connections have been canceled in both tables or in neither. -/
theorem AgreeOn.isCanceled (h : AgreeOn p t t') {c : Connection} (hc : p c) :
    t'.isCanceled c = t.isCanceled c := by
  simp only [Connections.isCanceled, h c hc]

/-- One of these connections may get another state in both tables. -/
theorem AgreeOn.setState (h : AgreeOn p t t') {d : Connection} {s : ConnectionState τ} (hd : p d)
    (hs : t.state? d = some s) (s' : ConnectionState τ) :
    AgreeOn p (t.setState d s') (t'.setState d s') := by
  intro c hc
  rw [state?_setState hs, state?_setState ((h d hd).trans hs), h c hc]

/-- A cancellation takes the same tokens from both tables. -/
theorem AgreeOn.cancel (h : AgreeOn p t t') {d : Connection} (hd : p d) :
    AgreeOn p (t.cancel d).1 (t'.cancel d).1 ∧ (t'.cancel d).2 = (t.cancel d).2 := by
  unfold Connections.cancel
  rw [h d hd]
  split
  · next s hs =>
      split
      · exact ⟨h, rfl⟩
      · exact ⟨h.setState hd hs _, rfl⟩
  · exact ⟨h, rfl⟩

/-- The same token is taken back from both tables. -/
theorem AgreeOn.pop (h : AgreeOn p t t') {d : Connection} (hd : p d) :
    AgreeOn p (t.pop d).1 (t'.pop d).1 ∧ (t'.pop d).2 = (t.pop d).2 := by
  unfold Connections.pop
  rw [h d hd]
  split
  · next canceled token tokens hs => exact ⟨h.setState hd hs _, rfl⟩
  · exact ⟨h, rfl⟩

/-- A token is registered in both tables, or due in both. -/
theorem AgreeOn.push (h : AgreeOn p t t') {d : Connection} (hd : p d) (token : τ) :
    (t.push d token = .due ∧ t'.push d token = .due) ∨
      ∃ u u', t.push d token = .kept u ∧ t'.push d token = .kept u' ∧ AgreeOn p u u' ∧
        u.states.size = t.states.size ∧ u'.states.size = t'.states.size := by
  unfold Connections.push
  rw [h d hd]
  split
  · next s hs =>
      split
      · exact .inl ⟨rfl, rfl⟩
      · exact .inr ⟨_, _, rfl, rfl, h.setState hd hs _, by simp, by simp⟩
  · exact .inr ⟨_, _, rfl, rfl, h, rfl, rfl⟩

/-- A cancellation adds no connection. -/
@[simp]
theorem size_cancel (t : Connections τ) (d : Connection) :
    (t.cancel d).1.states.size = t.states.size := by
  unfold Connections.cancel
  split
  · split <;> simp
  · rfl

/-- Taking a token back adds no connection. -/
@[simp]
theorem size_pop (t : Connections τ) (d : Connection) :
    (t.pop d).1.states.size = t.states.size := by
  unfold Connections.pop
  split <;> simp

/-- What is done to one connection is nothing to the others, and nothing is done to the uncancelable
one. -/
theorem agreeOn_setState {d : Connection} (hd : p d → d = .uncancelable) (s : ConnectionState τ) :
    AgreeOn p t (t.setState d s) := by
  intro c hc
  cases d with
  | uncancelable => rfl
  | cancelable i =>
      cases c with
      | uncancelable => rfl
      | cancelable j =>
          have hij : i ≠ j := by
            rintro rfl
            cases hd hc
          simp [state?, Connections.setState, Array.getElem?_setIfInBounds_ne hij]

/-- The cancellation of another connection leaves these connections as they are. -/
theorem agreeOn_cancel {d : Connection} (hd : p d → d = .uncancelable) :
    AgreeOn p t (t.cancel d).1 := by
  unfold Connections.cancel
  split
  · split
    · exact .refl p t
    · exact agreeOn_setState hd _
  · exact .refl p t

/-- A token of another connection is taken back, and these connections stay as they are. -/
theorem agreeOn_pop {d : Connection} (hd : p d → d = .uncancelable) : AgreeOn p t (t.pop d).1 := by
  unfold Connections.pop
  split
  · exact agreeOn_setState hd _
  · exact .refl p t

/-- A token is registered on another connection, and these connections stay as they are. -/
theorem agreeOn_push {d : Connection} (hd : p d → d = .uncancelable) {token : τ}
    (h : t.push d token = .kept t') : AgreeOn p t t' ∧ t'.states.size = t.states.size := by
  unfold Connections.push at h
  split at h
  · split at h
    · cases h
    · cases h
      exact ⟨agreeOn_setState hd _, by simp⟩
  · cases h
    exact ⟨.refl p t, rfl⟩

end Connections

namespace Holdings

variable {H : Holdings ι σ} {k : ι}

/-! ## What a party finds -/

/-- A world is to a party like the world of all parties: what belongs to it is the same.  Bridges
that belong to others wait for nothing, and no more numbers have been handed out. -/
structure Like (H : Holdings ι σ) (k : ι) (w w' : World S σ) : Prop where
  part : H.part k w'.host = H.part k w.host
  connections : w.connections.AgreeOn (H.Holds k) w'.connections
  created : w'.connections.states.size ≤ w.connections.states.size
  bridges : ∀ i, H.bridge i = k → w'.bridges[i]? = w.bridges[i]?
  others : ∀ i b, H.bridge i ≠ k → w'.bridges[i]? = some b → b.armed = none
  made : w'.bridges.size ≤ w.bridges.size
  classifier : w'.classifier = w.classifier

/-- Worlds in which nothing has happened are alike if the party has the same of the host. -/
theorem like_initial {host host' : σ} (part : H.part k host' = H.part k host)
    (thread thread' : String) :
    H.Like k (.initial host thread : World S σ) (.initial host' thread') where
  part := part
  connections := .refl _ _
  created := Nat.le_refl _
  bridges _ _ := rfl
  others i b _ hb := by simp [World.initial] at hb
  made := Nat.le_refl _
  classifier := rfl

namespace Like

variable {P : Program S σ} {w w' w₁ w₁' : World S σ}

/-- Reports to a silent host leave the world alike to the party. -/
theorem report (h : H.Like k w w') (silent : H.Silent P) (event event' : TraceEvent) :
    H.Like k (w.report P event) (w'.report P event') :=
  { h with
    part := by
      change H.part k (P.observe event' w'.host) = H.part k (P.observe event w.host)
      rw [silent, silent, h.part] }

/-- What the engine reports in the world of the party alone is nothing to the party either. -/
theorem noted (h : H.Like k w w') (silent : H.Silent P) (event : TraceEvent) :
    H.Like k w (w'.report P event) :=
  { h with part := (silent k event w'.host).trans h.part }

/-- The world that the party has alone may be on another thread. -/
theorem onThread (h : H.Like k w w') (thread : String) : H.Like k w (w'.onThread thread) :=
  { h with }

/-- Where both worlds are on the same threads does not matter. -/
theorem threads (h : H.Like k w w') (thread thread' : String) :
    H.Like k { w with thread := thread } { w' with thread := thread' } :=
  { h with }

/-- The connections of the party have been canceled in both worlds or in neither. -/
theorem isCanceled_eq (h : H.Like k w w') {c : Connection} (hc : H.Holds k c) :
    w'.connections.isCanceled c = w.connections.isCanceled c :=
  h.connections.isCanceled hc

/-- The tables of connections may change alike in both worlds. -/
theorem withConnections (h : H.Like k w w') {t t' : Connections S.Token}
    (ht : t.AgreeOn (H.Holds k) t') (hsize : t'.states.size ≤ t.states.size) :
    H.Like k { w with connections := t } { w' with connections := t' } :=
  { h with connections := ht, created := hsize }

/-- The callbacks of the party are armed in both worlds or in neither. -/
theorem isArmed_eq (h : H.Like k w w') {cb : Callback} (hcb : H.bridge cb.bridge = k) :
    w'.isArmed cb = w.isArmed cb := by
  simp only [World.isArmed, h.bridges _ hcb]

/-- Callbacks of others are stale. -/
theorem not_armed (h : H.Like k w w') {cb : Callback} (hcb : H.bridge cb.bridge ≠ k) :
    w'.isArmed cb = false := by
  unfold World.isArmed
  cases hb : w'.bridges[cb.bridge]? with
  | none => rfl
  | some b => simp [h.others _ b hcb hb]

/-- The callbacks of the party belong to runs on the same connection in both worlds. -/
theorem connectionOf_eq (h : H.Like k w w') {cb : Callback} (hcb : H.bridge cb.bridge = k) :
    w'.connectionOf cb = w.connectionOf cb := by
  simp only [World.connectionOf, h.bridges _ hcb]

/-- A bridge of the party is replaced in both worlds. -/
theorem setBridge (h : H.Like k w w') {i : Nat} (hi : H.bridge i = k) (b : Bridge S) :
    H.Like k (w.setBridge i b) (w'.setBridge i b) where
  part := h.part
  connections := h.connections
  created := h.created
  bridges j hj := by
    have hsame := h.bridges j hj
    by_cases hij : i = j
    · subst hij
      cases hb : w.bridges[i]? with
      | none =>
          have hb' : w'.bridges[i]? = none := hsame.trans hb
          have hw : ∀ v : World S σ, v.bridges[i]? = none →
              (v.setBridge i b).bridges[i]? = none := by
            intro v hv
            rw [Array.getElem?_eq_none_iff] at hv ⊢
            simpa using hv
          rw [hw w hb, hw w' hb']
      | some x =>
          rw [World.setBridge_bridges_self hb, World.setBridge_bridges_self (hsame.trans hb)]
    · rw [World.setBridge_bridges_of_ne hij, World.setBridge_bridges_of_ne hij, hsame]
  others j x hj hx := by
    have hij : i ≠ j := fun hij => hj (hij ▸ hi)
    rw [World.setBridge_bridges_of_ne hij] at hx
    exact h.others j x hj hx
  made := by simpa using h.made
  classifier := h.classifier

/-- A bridge of another party is none of the business of this one. -/
theorem setBridge_of_ne (h : H.Like k w w') {i : Nat} (hi : H.bridge i ≠ k) (b : Bridge S) :
    H.Like k (w.setBridge i b) w' :=
  { h with
    bridges := fun j hj => by
      have hij : i ≠ j := fun hij => hi (hij ▸ hj)
      rw [World.setBridge_bridges_of_ne hij, h.bridges j hj]
    made := by simpa using h.made }

/-- Others may do with their bridges what they want. -/
theorem onBridges (h : H.Like k w w') {bridges : Array (Bridge S)}
    (same : ∀ i, H.bridge i = k → bridges[i]? = w.bridges[i]?)
    (size : w.bridges.size ≤ bridges.size) : H.Like k { w with bridges := bridges } w' :=
  { h with
    bridges := fun i hi => (h.bridges i hi).trans (same i hi).symm
    made := Nat.le_trans h.made size }

/-- The numbers that others have been given are skipped. -/
theorem skipBridges (h : H.Like k w w') :
    H.Like k w (w'.skipBridges w.bridges.size) ∧
      (w'.skipBridges w.bridges.size).bridges.size = w.bridges.size := by
  have hsize : (w'.skipBridges w.bridges.size).bridges.size = w.bridges.size := by
    have hmade := h.made
    simp only [World.skipBridges, Array.size_append, Array.size_replicate]
    omega
  refine ⟨{ h with bridges := fun i hi => ?_, others := fun i b hi hb => ?_, made := by omega },
    hsize⟩
  · rw [← h.bridges i hi]
    simp only [World.skipBridges, Array.getElem?_append]
    split
    · rfl
    · next hlt =>
        -- A bridge of the party that has been made has been made in its own world.
        have hnone : w'.bridges[i]? = none := Array.getElem?_eq_none (by omega)
        have hw : w.bridges[i]? = none := (h.bridges i hi).symm.trans hnone
        rw [Array.getElem?_eq_none_iff] at hw
        rw [hnone, Array.getElem?_eq_none_iff, Array.size_replicate]
        omega
  · simp only [World.skipBridges, Array.getElem?_append] at hb
    split at hb
    · exact h.others i b hi hb
    · rw [Array.getElem?_replicate] at hb
      split at hb
      · cases hb
        rfl
      · cases hb

/-- What the party has got is in its own world. -/
theorem lt_created (h : H.Like k w w') {i : Nat} (hi : H.connection i = k)
    (hlt : i < w.connections.states.size) : i < w'.connections.states.size := by
  have hsame := h.connections (.cancelable i) hi
  simp only [Connections.state?, Array.getElem?_eq_getElem hlt] at hsame
  exact (Array.getElem?_eq_some_iff.mp hsame).1

/-- So are those of connections, up to the size of a table that has what the party has got, and new
connections besides. -/
theorem skipConnections (h : H.Like k w w') {t : Connections S.Token}
    (size : w.connections.states.size ≤ t.states.size)
    (kept : ∀ i, H.connection i = k → i < w.connections.states.size →
      t.states[i]? = w.connections.states[i]?)
    (fresh : ∀ i, H.connection i = k → w.connections.states.size ≤ i → i < t.states.size →
      t.states[i]? = some .fresh) :
    H.Like k { w with connections := t } (w'.skipConnections t.states.size) :=
  { h with
    connections := fun c hc => by
      cases c with
      | uncancelable => rfl
      | cancelable i =>
          have hi : H.connection i = k := hc
          have hsame := h.connections (.cancelable i) hc
          have hcreated := h.created
          simp only [Connections.state?, World.skipConnections, Array.getElem?_append] at hsame ⊢
          split
          · rw [hsame, kept i hi (by omega)]
          · next hlt =>
              have hle : w.connections.states.size ≤ i := by
                apply Nat.le_of_not_lt
                exact fun hlt' => hlt (h.lt_created hi hlt')
              rw [Array.getElem?_replicate]
              split
              · exact (fresh i hi hle (by omega)).symm
              · exact (Array.getElem?_eq_none (by omega)).symm
    created := by
      have hcreated := h.created
      simp only [World.skipConnections, Array.size_append, Array.size_replicate]
      omega }

/-- A query about what belongs to the party has the same answer in both worlds. -/
theorem answer {α : Type} (h : H.Like k w w') (hthread : w'.thread = w.thread) {q : Query S σ}
    {next : q.Answer → Code S σ α} (hq : (Code.query q next).Within H k w.host)
    (hnew : w.connections.states.size < (w.answer q).1.connections.states.size →
      w'.connections.states.size = w.connections.states.size) :
    H.Like k (w.answer q).1 (w'.answer q).1 ∧ next (w'.answer q).2 = next (w.answer q).2 := by
  cases q with
  | host => exact ⟨h, hq w'.host h.part⟩
  | modifyHost f => exact ⟨{ h with part := hq.1 w'.host h.part }, rfl⟩
  | threadName => exact ⟨h, congrArg next hthread⟩
  | newConnection =>
      have hsize : w'.connections.states.size = w.connections.states.size :=
        hnew (by simp [World.answer, Connections.create])
      have hname : w'.connections.create.2 = w.connections.create.2 := by
        simp only [Connections.create, hsize]
      have hagree : w.connections.create.1.AgreeOn (H.Holds k) w'.connections.create.1 := by
        intro c hc
        rw [Connections.state?_create, Connections.state?_create, hsize, h.connections c hc]
      exact ⟨h.withConnections hagree (by simp [hsize]), congrArg next hname⟩
  | isCanceled c => exact ⟨h, congrArg next (h.isCanceled_eq hq)⟩
  | pop c =>
      obtain ⟨hagree, htoken⟩ := h.connections.pop hq
      have hsize : (w'.connections.pop c).1.states.size ≤ (w.connections.pop c).1.states.size := by
        simpa using h.created
      exact ⟨h.withConnections hagree hsize, congrArg next htoken⟩
  | connectionOf cb => exact ⟨h, congrArg next (h.connectionOf_eq hq)⟩
  | isNonFatal payload => exact ⟨h, congrArg next (congrFun h.classifier payload)⟩
  | setClassifier f => exact hq.elim

variable {run : Loop S}

/-- A loop of the party parks in the same bridge in both worlds. -/
theorem arm (h : H.Like k w w') (hout : ∀ i, run.outlet = .bridge i → H.bridge i = k)
    (hnew : ∀ t, run.outlet = .terminal t →
      H.bridge w.bridges.size = k ∧ w'.bridges.size = w.bridges.size) :
    H.Like k (w.arm run).1 (w'.arm run).1 ∧ (w'.arm run).2 = (w.arm run).2 ∧
      H.bridge (w.arm run).2.bridge = k := by
  unfold World.arm
  cases ho : run.outlet with
  | terminal t =>
      obtain ⟨hk, hsize⟩ := hnew t ho
      refine ⟨{ h with
        bridges := fun i hi => ?_
        others := fun i b hi hb => ?_
        made := ?_ }, ?_, hk⟩
      · simp only [Array.getElem?_push, hsize, h.bridges i hi]
      · have hne : i ≠ w'.bridges.size := fun hne => hi (by rw [hne, hsize, hk])
        simp only [Array.getElem?_push, hne, if_false] at hb
        exact h.others i b hi hb
      · simp [hsize]
      · simp [hsize]
  | bridge i =>
      have hi := hout i ho
      simp only [h.bridges i hi]
      split
      · exact ⟨h.setBridge hi _, rfl, hi⟩
      · exact ⟨h, rfl, hi⟩

/-- A bridge of the party follows a switch in both worlds. -/
theorem followSwitch (h : H.Like k w w') (hout : ∀ i, run.outlet = .bridge i → H.bridge i = k)
    (new : Connection) : H.Like k (w.followSwitch run new) (w'.followSwitch run new) := by
  unfold World.followSwitch
  split
  · exact h
  · cases ho : run.outlet with
    | terminal t => exact h
    | bridge i =>
        simp only [h.bridges i (hout i ho)]
        split
        · exact h.setBridge (hout i ho) _
        · exact h

/-- A loop of the party would give its outcome to the same terminal in both worlds. -/
theorem terminal?_eq (h : H.Like k w w') (hout : ∀ i, run.outlet = .bridge i → H.bridge i = k) :
    w'.terminal? run.outlet = w.terminal? run.outlet := by
  cases ho : run.outlet with
  | terminal t => rfl
  | bridge i => simp only [World.terminal?, h.bridges i (hout i ho)]

/-- A loop of the party takes its terminal in both worlds. -/
theorem release (h : H.Like k w w') (hout : ∀ i, run.outlet = .bridge i → H.bridge i = k) :
    H.Like k (w.release run.outlet) (w'.release run.outlet) := by
  cases ho : run.outlet with
  | terminal t => exact h
  | bridge i =>
      simp only [World.release, h.bridges i (hout i ho)]
      split
      · exact h.setBridge (hout i ho) _
      · exact h

end Like

end Holdings

end Trampoline
