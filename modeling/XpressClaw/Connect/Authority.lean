import XpressClaw.Connect.Steps

/-!
# Revoked authority

The authority of a command is its lease, and that its binding is active at the generation the
command was admitted with.  `disable_binding` ends both for every command admitted so far.
Nothing but `renew` gives a lease again, and `renew` asks for the active flag and the
generation; so authority comes back exactly when a `bind` sets the flag again and leaves the
generation as it was.

* `Sys.Ended` — the command has no lease, and its binding does not stand behind it.
* `step_lease`, `step_binding` — what one call does to leases and to the active flags.
* `revoked_authority_stays_revoked` — without such a `bind`, what was ended stays ended.
-/

namespace XpressClaw.Connect

open Lib

/-! ## Publishing a disabled binding again -/

namespace Sys

/-- The checks of `bind` on the project and the Agent of the binding. -/
def bindable (s : Sys) (instanceId : String) (b : Binding) : Bool :=
  (s.ensureProjectAcceptsWork b.localProjectId).isOk &&
    s.agentProject b.localAgentId = some b.localProjectId &&
    (s.validateProjectMapping instanceId b.localProjectId b.projectId).isOk

/-- The stored binding is disabled, and is published as active at the same generation. -/
def reopens (s : Sys) (instanceId : String) (b : Binding) : Bool :=
  b.active && s.bindable instanceId b && (s.binding? b.id).any fun row =>
    sameIdentity row instanceId b && !row.active && b.generation = row.saved.generation

end Sys

/-- The call publishes the disabled binding as active at the generation it has. -/
def Op.reopens (bindingId : String) (s : Sys) : Op → Bool
  | .bind instanceId b => b.id = bindingId && s.reopens instanceId b
  | _ => false

namespace Sys

variable {s s' : Sys} {wire : Wire}

theorem bindable_of_bind {instanceId : String} {b : Binding}
    (h : s.bind wire instanceId b = .ok s') : s.bindable instanceId b = true := by
  unfold bind at h
  split at h
  · cases h
  · obtain ⟨_, hproject, h⟩ := bind_ok h
    split at h
    · cases h
    · rename_i hagent
      obtain ⟨_, hmapping, -⟩ := bind_ok h
      simp only [ne_eq, not_not] at hagent
      simp [bindable, hproject, hagent, hmapping, Except.isOk, Except.toBool]

/-! ## Ended commands -/

/-- No binding stands behind the command: its own is disabled or of a later generation. -/
def Unbacked (s : Sys) (c : CommandRow) : Prop :=
  ∀ b ∈ s.bindings, b.id = c.bindingId → b.active = false ∨ c.bindingGeneration < b.generation

/-- The command has no lease, and no binding stands behind it. -/
structure Ended (s : Sys) (c : CommandRow) : Prop where
  lease : c.accepted = true → c.leaseUntil = 0
  unbacked : s.Unbacked c

theorem Unbacked.backs_eq_false {c : CommandRow} (h : s.Unbacked c) {b : BindingRow}
    (hb : b ∈ s.bindings) : s.backs b c = false := by
  by_contra hbacks
  simp only [backs, Bool.not_eq_false, Bool.and_eq_true, decide_eq_true_eq] at hbacks
  obtain ⟨⟨⟨hid, hactive⟩, hgeneration⟩, -⟩ := hbacks
  rcases h b hb hid with hoff | hlt
  · rw [hoff] at hactive
    cases hactive
  · omega

theorem Unbacked.renewable_eq_false {c : CommandRow} (h : s.Unbacked c) :
    s.renewable c = false := by
  rw [renewable, List.any_eq_false]
  intro b hb
  simp [h.backs_eq_false hb]

theorem Unbacked.toolCommand_ne (hs : s.Schema) {c : CommandRow} (hc : c ∈ s.commands)
    (h : s.Unbacked c) (instanceId conversationId agentId : String) (now : ℤ) :
    s.toolCommand instanceId conversationId agentId now ≠ some c.id := by
  intro hfound
  obtain ⟨c', hfind, hid⟩ := Option.map_eq_some_iff.1 hfound
  have heq := hs.eq_of_command (List.mem_of_find?_eq_some hfind) hc hid
  have hsome := List.find?_some hfind
  simp only [Bool.and_eq_true, List.any_eq_true] at hsome
  obtain ⟨-, b, hb, hbacks, -⟩ := hsome
  rw [heq, h.backs_eq_false hb] at hbacks
  cases hbacks

theorem Unbacked.toolExecutionCommand_ne (hs : s.Schema) {c : CommandRow} (hc : c ∈ s.commands)
    (h : s.Unbacked c) (instanceId commandId agentId : String) (now : ℤ) :
    s.toolExecutionCommand instanceId commandId agentId now ≠ some c.id := by
  intro hfound
  obtain ⟨c', hfind, hid⟩ := Option.map_eq_some_iff.1 hfound
  have heq := hs.eq_of_command (List.mem_of_find?_eq_some hfind) hc hid
  have hsome := List.find?_some hfind
  simp only [Bool.and_eq_true, List.any_eq_true] at hsome
  obtain ⟨-, b, hb, ⟨hbacks, -⟩, -⟩ := hsome
  rw [heq, h.backs_eq_false hb] at hbacks
  cases hbacks

/-- The attempt of the command is not claimed on its lease. -/
theorem Unbacked.leased_eq_false (hs : s.Schema) {c : CommandRow} (hc : c ∈ s.commands)
    (h : s.Unbacked c) {candidate : Tasks.WorkAttempt} (hown : c.attemptId = some candidate.id)
    (now : ℤ) (q : Tasks.QueueItem) (t : Tasks.Task) :
    s.tasksView.leased now q t candidate = false := by
  rw [Tasks.Db.leased, List.any_eq_false]
  intro row hrow hleased
  obtain ⟨c', hc', rfl⟩ := List.mem_map.1 hrow
  simp only [Bool.and_eq_true, decide_eq_true_eq, List.any_eq_true] at hleased
  obtain ⟨⟨⟨hattempt, -⟩, -⟩, view, hview, hstands⟩ := hleased
  obtain ⟨b, hb, rfl⟩ := List.mem_map.1 hview
  have heq := hs.eq_of_command hc' hc
    (hs.attempts c' hc' c hc (by simp [hattempt]) (hattempt.trans hown.symm))
  subst heq
  have hid : b.id = c'.bindingId := hstands.1.1.1.1.1.1
  have hactive : b.active = true := hstands.1.1.1.1.1.2
  have hgeneration : b.generation = c'.bindingGeneration := hstands.1.1.1.1.2
  rcases h b hb hid with hoff | hlt
  · rw [hactive] at hoff
    cases hoff
  · omega

end Sys

/-! ## One call -/

section Step

variable {wire : Wire} {needsUserInput : String → Bool} {s : Sys}

/-- What one call does to a command and its lease. -/
structure CommandRow.Leases (s : Sys) (c c' : CommandRow) : Prop where
  becomes : c.Becomes c'
  lease : c'.leaseUntil = c.leaseUntil ∨ c'.leaseUntil = 0 ∨ s.renewable c = true

theorem CommandRow.Leases.refl (c : CommandRow) : c.Leases s c := ⟨.refl c, Or.inl rfl⟩

theorem Sys.mem_updateCommands {R : CommandRow → CommandRow → Prop} (hrefl : ∀ c, R c c)
    {w : CommandRow → Bool} {set : CommandRow → CommandRow} (h : ∀ c, w c = true → R c (set c))
    {c' : CommandRow} (hc' : c' ∈ (s.updateCommands w set).commands) :
    ∃ c ∈ s.commands, R c c' := by
  obtain ⟨c, hc, rfl⟩ := List.mem_map.1 hc'
  refine ⟨c, hc, ?_⟩
  by_cases hw : w c = true
  · simpa [hw] using h c hw
  · simpa [hw] using hrefl c

theorem Sys.collectAttempt_lease (c : CommandRow) :
    (s.collectAttempt c).leaseUntil = c.leaseUntil := by
  unfold collectAttempt
  split
  · rfl
  · split
    · rfl
    · split <;> rfl

theorem Sys.collectTurn_lease (c : CommandRow) : (s.collectTurn c).leaseUntil = c.leaseUntil := by
  unfold collectTurn
  split
  · rfl
  · split
    · rfl
    · split <;> rfl

theorem Sys.collect_lease {instanceId : String} {c' : CommandRow}
    (hc' : c' ∈ (s.collect instanceId).commands) :
    ∃ c ∈ s.commands, c.Becomes c' ∧ c'.leaseUntil = c.leaseUntil := by
  have hrefl (c : CommandRow) : c.Becomes c ∧ c.leaseUntil = c.leaseUntil := ⟨.refl c, rfl⟩
  obtain ⟨c₁, hc₁, hturn, hlease⟩ := mem_updateCommands
    (R := fun c c' => c.Becomes c' ∧ c'.leaseUntil = c.leaseUntil) hrefl
    (fun c hc => ⟨collectTurn_becomes (by simp_all), collectTurn_lease c⟩) hc'
  obtain ⟨c, hc, hattempt, hlease₁⟩ := mem_updateCommands
    (R := fun c c' => c.Becomes c' ∧ c'.leaseUntil = c.leaseUntil) hrefl
    (fun c hc => ⟨collectAttempt_becomes (by simp_all), collectAttempt_lease c⟩) hc₁
  exact ⟨c, hc, hattempt.trans hturn, hlease.trans hlease₁⟩

theorem Sys.republish_leases {row : BindingRow} {b : Binding} {c' : CommandRow}
    (hc' : c' ∈ (s.republish row b).commands) : ∃ c ∈ s.commands, c.Leases s c' := by
  unfold republish at hc'
  dsimp only at hc'
  split at hc'
  · exact mem_updateCommands (s := s.updateBindings _ _) .refl
      (fun c _ => ⟨.lease c 0, Or.inr (Or.inl rfl)⟩) hc'
  · exact ⟨c', hc', .refl c'⟩

/-- A call leaves the lease of a command, ends it, or renews what is renewable; or the command
is a new one. -/
theorem step_lease (op : Op) {c' : CommandRow}
    (hc' : c' ∈ (step wire needsUserInput s op).commands) :
    (∃ c ∈ s.commands, c.Leases s c') ∨ ∀ c ∈ s.commands, c.id ≠ c'.id := by
  have hsame {s' : Sys} (h : s'.commands = s.commands) (hmem : c' ∈ s'.commands) :
      (∃ c ∈ s.commands, c.Leases s c') ∨ ∀ c ∈ s.commands, c.id ≠ c'.id :=
    Or.inl ⟨c', h ▸ hmem, .refl c'⟩
  cases op with
  | bind instanceId b =>
    rw [step_bind] at hc'
    split at hc'
    · rename_i s' h
      rcases Sys.bind_cases h with ⟨row, -, -, -, rfl⟩ | ⟨-, rfl⟩
      · exact Or.inl (Sys.republish_leases hc')
      · exact hsame rfl hc'
    · exact hsame rfl hc'
  | disableBinding instanceId b =>
    exact Or.inl (Sys.mem_updateCommands (s := s.updateBindings _ _) .refl
      (fun c _ => ⟨.lease c 0, Or.inr (Or.inl rfl)⟩) hc')
  | admitCommand instanceId c fresh leaseUntil now =>
    rw [step_admitCommand] at hc'
    split at hc'
    · rename_i e s' h
      rcases Sys.admit_cases h with ⟨row, -, -, -, -, rfl⟩ | ⟨-, row, hrow, -⟩
      · exact hsame rfl hc'
      · rw [hrow.commands] at hc'
        rcases List.mem_append.1 hc' with hold | hnew
        · exact hsame rfl hold
        · rw [List.mem_singleton] at hnew
          subst hnew
          exact Or.inr fun c hc => (hrow.apart c hc).1
    · exact hsame rfl hc'
  | renew instanceId id leaseUntil =>
    refine Or.inl (Sys.mem_updateCommands .refl (fun c hc => ⟨.lease c leaseUntil, ?_⟩) hc')
    simp only [Bool.and_eq_true] at hc
    exact Or.inr (Or.inr hc.2)
  | acknowledge instanceId id =>
    refine Or.inl (Sys.mem_updateCommands .refl (fun c hc => ⟨⟨rfl, fun _ => rfl, ?_, fun h => h⟩,
      Or.inl rfl⟩) hc')
    simp only [Bool.and_eq_true, Bool.not_eq_true'] at hc
    exact fun _ _ => hc.2
  | collect instanceId =>
    obtain ⟨c, hc, hbecomes, hlease⟩ := Sys.collect_lease hc'
    exact Or.inl ⟨c, hc, hbecomes, Or.inl hlease⟩
  | _ => exact hsame rfl hc'

/-- A call keeps a disabled binding disabled, publishes it at a later generation, or publishes
it again as it was; or the binding is a new one. -/
theorem step_binding (hs : s.Schema) (op : Op) {b' : BindingRow}
    (hb' : b' ∈ (step wire needsUserInput s op).bindings) :
    (∃ b ∈ s.bindings, b.id = b'.id ∧ b.generation ≤ b'.generation ∧
      (b.active = false → b'.active = false ∨ b.generation < b'.generation ∨
        op.reopens b.id s = true)) ∨
    ∀ b ∈ s.bindings, b.id ≠ b'.id := by
  have hsame {s' : Sys} (h : s'.bindings = s.bindings) (hmem : b' ∈ s'.bindings) :
      (∃ b ∈ s.bindings, b.id = b'.id ∧ b.generation ≤ b'.generation ∧
        (b.active = false → b'.active = false ∨ b.generation < b'.generation ∨
          op.reopens b.id s = true)) ∨ ∀ b ∈ s.bindings, b.id ≠ b'.id :=
    Or.inl ⟨b', h ▸ hmem, rfl, le_rfl, fun hoff => Or.inl hoff⟩
  cases op with
  | bind instanceId b =>
    rw [step_bind] at hb'
    split at hb'
    · rename_i s' h
      have hbindable := Sys.bindable_of_bind h
      rcases Sys.bind_cases h with ⟨row, hrow, hidentity, hle, rfl⟩ | ⟨hnone, rfl⟩
      · obtain ⟨hmem, hid⟩ := Sys.mem_of_binding? hrow
        rw [Sys.republish_bindings] at hb'
        obtain ⟨r, hr, rfl⟩ := List.mem_map.1 hb'
        by_cases hrid : r.id = b.id
        · have heq := hs.eq_of_binding hr hmem (hrid.trans hid.symm)
          have hsaved := hs.saved r hr
          subst heq
          rw [if_pos hrid]
          refine Or.inl ⟨r, hr, rfl, by rw [← hsaved]; exact hle, fun hoff => ?_⟩
          by_cases hlt : r.generation < b.generation
          · exact Or.inr (Or.inl hlt)
          · cases hactive : b.active with
            | false => exact Or.inl rfl
            | true =>
              have hgeneration : b.generation = r.saved.generation := by omega
              refine Or.inr (Or.inr ?_)
              simp [Op.reopens, Sys.reopens, hrid, hactive, hbindable, hrow, hidentity, hoff,
                hgeneration]
        · refine Or.inl ⟨r, hr, ?_⟩
          rw [if_neg hrid]
          exact ⟨rfl, le_rfl, fun hoff => Or.inl hoff⟩
      · rcases List.mem_append.1 hb' with hold | hnew
        · exact hsame rfl hold
        · rw [List.mem_singleton] at hnew
          subst hnew
          refine Or.inr fun r hr hrid => ?_
          have hfree := List.find?_eq_none.1 hnone r hr
          simp [hrid, Sys.bindingRow] at hfree
    · exact hsame rfl hb'
  | disableBinding instanceId b =>
    obtain ⟨r, hr, rfl⟩ := List.mem_map.1 hb'
    refine Or.inl ⟨r, hr, ?_⟩
    split
    · exact ⟨rfl, le_rfl, fun _ => Or.inl rfl⟩
    · exact ⟨rfl, le_rfl, fun hoff => Or.inl hoff⟩
  | admitCommand instanceId c fresh leaseUntil now =>
    rw [step_admitCommand] at hb'
    split at hb'
    · rename_i e s' h
      rcases Sys.admit_cases h with ⟨row, -, -, -, -, rfl⟩ | ⟨-, row, hrow, -⟩
      · exact hsame rfl hb'
      · exact hsame hrow.bindings hb'
    · exact hsame rfl hb'
  | _ => exact hsame rfl hb'

/-- A call that does not publish the disabled binding as it was keeps its commands ended. -/
theorem step_ended (hs : s.Schema) {op : Op} {c c' : CommandRow} (hc : c ∈ s.commands)
    (h : s.Ended c) (hop : op.reopens c.bindingId s = false)
    (hc' : c' ∈ (step wire needsUserInput s op).commands) (hid : c'.id = c.id) :
    c.Becomes c' ∧ (step wire needsUserInput s op).Ended c' := by
  rcases step_lease op hc' with ⟨d, hd, hleases⟩ | hnew
  · have heq := hs.eq_of_command hd hc (hleases.becomes.id.symm.trans hid)
    subst heq
    refine ⟨hleases.becomes, fun hacc => ?_, fun b' hb' hb'id => ?_⟩
    · have hstill : d.accepted = true := by
        by_contra hclosed
        have hfinal := hleases.becomes.final (by simpa using hclosed)
        rw [CommandRow.accepted_of_receipt hfinal] at hacc
        exact hclosed hacc
      rcases hleases.lease with hkept | hzero | hrenewed
      · rw [hkept]
        exact h.lease hstill
      · exact hzero
      · rw [h.unbacked.renewable_eq_false] at hrenewed
        cases hrenewed
    · rw [hleases.becomes.bindingId] at hb'id
      rw [hleases.becomes.bindingGeneration]
      obtain ⟨own, hown, hownid, -, hreached⟩ := hs.references d hd
      rcases step_binding hs op hb' with ⟨b, hb, hbid, hrises, hoff⟩ | hfresh
      · have hbelongs : b.id = d.bindingId := hbid.trans hb'id
        have hsame := hs.eq_of_binding hb hown (hbelongs.trans hownid.symm)
        subst hsame
        rcases h.unbacked b hb hbelongs with hinactive | hlater
        · rcases hoff hinactive with hstays | hlt | hreopens
          · exact Or.inl hstays
          · exact Or.inr (by omega)
          · rw [hbelongs, hop] at hreopens
            cases hreopens
        · exact Or.inr (by omega)
      · exact absurd (hownid.trans hb'id.symm) (hfresh own hown)
  · exact absurd hid.symm (hnew c hc)

/-- `disable_binding` ends every command of the binding. -/
theorem disableBinding_ended (hs : s.Schema) {instanceId bindingId : String} {c : CommandRow}
    (hc : c ∈ s.commands) (howner : c.instanceId = instanceId)
    (hbinding : c.bindingId = bindingId) :
    ∃ c' ∈ (s.disableBinding instanceId bindingId).commands, c'.id = c.id ∧
      c'.bindingId = c.bindingId ∧ (s.disableBinding instanceId bindingId).Ended c' := by
  refine ⟨_, List.mem_map_of_mem hc, ?_⟩
  have hbecomes : c.Becomes (if (c.instanceId = instanceId && c.bindingId = bindingId &&
      c.accepted : Bool) then { c with leaseUntil := 0 } else c) := by
    split
    · exact .lease c 0
    · exact .refl c
  refine ⟨hbecomes.id, hbecomes.bindingId, fun hacc => ?_, fun b' hb' hid => Or.inl ?_⟩
  · split at hacc
    · rename_i hmine
      rw [if_pos hmine]
    · rename_i hother
      simp [howner, hbinding, hacc] at hother
  · rw [hbecomes.bindingId] at hid
    obtain ⟨b, hb, rfl⟩ := List.mem_map.1 hb'
    obtain ⟨own, hown, hownid, hownowner, -⟩ := hs.references c hc
    by_cases hmine : (b.instanceId = instanceId && b.id = bindingId : Bool) = true
    · rw [if_pos hmine]
    · rw [if_neg hmine] at hid
      have hsame := hs.eq_of_binding hb hown (hid.trans hownid.symm)
      subst hsame
      simp [hownowner, howner, hid, hbinding] at hmine

end Step

/-! ## Runs -/

variable (wire : Wire) (needsUserInput : String → Bool)

/-- **Revoked authority stays revoked**, as long as no `bind` publishes the disabled binding as
active at the generation it has: a command that was admitted before `disable_binding` has no
lease, authorizes no tool call, and does not let its attempt be claimed. -/
theorem revoked_authority_stays_revoked {s : Sys} (hs : s.Unpaired) (before after : List Op)
    (instanceId bindingId : String)
    (h : Along (step wire needsUserInput) (fun s op => op.reopens bindingId s = false)
      (step wire needsUserInput (runOps (step wire needsUserInput) s before)
        (.disableBinding instanceId bindingId)) after) :
    ∀ c ∈ (runOps (step wire needsUserInput) s before).commands,
      c.instanceId = instanceId → c.bindingId = bindingId →
      let s' := runOps (step wire needsUserInput) s
        (before ++ .disableBinding instanceId bindingId :: after)
      ∃ c', s'.command? c.id = some c' ∧ (c'.accepted = true → c'.leaseUntil = 0) ∧
        (∀ instanceId conversationId agentId now,
          s'.toolCommand instanceId conversationId agentId now ≠ some c.id) ∧
        (∀ instanceId commandId agentId now,
          s'.toolExecutionCommand instanceId commandId agentId now ≠ some c.id) ∧
        ∀ candidate : Tasks.WorkAttempt, c'.attemptId = some candidate.id →
          ∀ now q t, s'.tasksView.leased now q t candidate = false := by
  intro c hc howner hbinding
  rw [runOps_append, runOps_cons]
  have hbefore := run_schema wire needsUserInput hs.schema before
  obtain ⟨c₁, hc₁, hid₁, hb₁, hended₁⟩ := disableBinding_ended hbefore hc howner hbinding
  have hrun := h.invariant (I := fun s => s.Schema ∧
      ∃ c' ∈ s.commands, c'.id = c.id ∧ c'.bindingId = bindingId ∧ s.Ended c')
    (fun s op ⟨hs, c', hc', hid, hb, hended⟩ hop => by
      obtain ⟨c'', hc'', hbecomes⟩ := step_keeps hs op hc'
      have hnext := step_ended hs hc' hended (by rw [hb]; exact hop) hc'' hbecomes.id
      exact ⟨step_schema hs op, c'', hc'', hbecomes.id.trans hid, hbecomes.bindingId.trans hb,
        hnext.2⟩)
    ⟨step_schema hbefore _, c₁, hc₁, hid₁, hb₁.trans hbinding, hended₁⟩
  obtain ⟨hschema, c', hc', hid, -, hended⟩ := hrun
  rw [← hid]
  exact ⟨c', hschema.command?_of_mem hc', hended.lease, hended.unbacked.toolCommand_ne hschema hc',
    hended.unbacked.toolExecutionCommand_ne hschema hc',
    fun candidate hown => hended.unbacked.leased_eq_false hschema hc' hown⟩

/-- The journal's row of the request. -/
def questionRow : CommandRow where
  id := question.id
  instanceId := "instance"
  bindingId := (atlas 1).id
  payloadHash := question.id ++ "Status?"
  bindingGeneration := 1
  conversationId := some "chat"
  turnId := some 0
  taskId := none
  attemptId := none
  status := "accepted"
  leaseUntil := 200

/-- The Agent is published again at a generation, and a heartbeat renews the lease. -/
def publishedAgain (generation : ℤ) : List Op :=
  [.renew "instance" question.id 300, .bind "instance" (atlas generation),
   .renew "instance" question.id 300]

theorem laterGeneration_stays_revoked :
    (runOps (step plainWire fun _ => false) unpaired
      (asked ++ .disableBinding "instance" (atlas 1).id :: publishedAgain 2)).toolCommand
        "instance" "chat" "atlas" 110 ≠ some question.id := by
  obtain ⟨_, -, -, htool, -⟩ := revoked_authority_stays_revoked plainWire (fun _ => false)
    unpaired_unpaired asked (publishedAgain 2) "instance" (atlas 1).id (by decide +kernel)
    questionRow (by decide +kernel) rfl rfl
  exact htool "instance" "chat" "atlas" 110

/-- Published again at the generation it had, the binding lends its authority again. -/
theorem sameGeneration_revives :
    let s := runOps (step plainWire fun _ => false) unpaired
      (asked ++ .disableBinding "instance" (atlas 1).id :: publishedAgain 1)
    (s.command? question.id).map (fun c => (c.accepted, c.leaseUntil)) = some (true, 300) ∧
      s.toolCommand "instance" "chat" "atlas" 110 = some question.id := by
  decide +kernel

end XpressClaw.Connect
