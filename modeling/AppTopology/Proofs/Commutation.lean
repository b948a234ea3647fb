import AppTopology.Proofs.Anonymity
import AppTopology.Proofs.Effect
import AppTopology.Proofs.Locality
import AppTopology.Proofs.Trail

namespace AppTopology

namespace Target

variable {target other : Target} {p : Position}

/-- Different entities, neither of which lies inside the other. -/
def Apart (target other : Target) : Prop :=
  ¬ target.Covers other.position ∧ ¬ other.Covers target.position

instance (target other : Target) : Decidable (target.Apart other) :=
  inferInstanceAs (Decidable (_ ∧ _))

theorem Apart.symm (h : target.Apart other) : other.Apart target := And.symm h

theorem Apart.not_covers (h : target.Apart other) (hp : target.Covers p) : ¬ other.Covers p := by
  obtain ⟨hother, htarget⟩ := h
  intro hp'
  rcases covers_iff.mp hp with rfl | ⟨hitem, hprefix⟩
  · exact htarget hp'
  · rcases covers_iff.mp hp' with rfl | ⟨hitem', hprefix'⟩
    · exact hother hp
    · -- Two apps on the way to one position lie one inside the other.
      rcases List.prefix_or_prefix_of_prefix hprefix hprefix' with hle | hle
      · exact hother (covers_iff.mpr (.inr ⟨hitem, hle⟩))
      · exact htarget (covers_iff.mpr (.inr ⟨hitem', hle⟩))

end Target

theorem Entity.declared_detached (entity : Entity) : entity.detached.declared = entity.declared := by
  cases entity <;> rfl

namespace Store

variable {before after before' after' store : Store} {mutation first second : Mutation}
variable {p : Position} {log : Changelog}

theorem registry_mutate (store : Store) (mutation : Mutation) (mode : Mode) :
    (store.mutate mutation mode).store.registry = store.registry := by
  obtain ⟨_, -, hsame⟩ | ⟨hmode, edited, staged, log, hedit, hsettle⟩ :=
    refused_or_settled store mutation mode
  · rw [hsame]
  · rw [(mutate_of_settled hmode hedit hsettle).2]
    split <;> rfl

namespace Effect

theorem sameAt (h : Effect before after mutation) (hp : ¬ mutation.target.Covers p) :
    before.tree.SameAt after.tree p := by
  have hsame := h.elsewhere p hp
  constructor
  · have hdeclared := congrArg (Option.map Entity.declared) hsame
    simpa only [Option.map_map, Function.comp_def, Entity.declared_detached] using hdeclared
  · have hinfo := congrArg (Option.map fun entity => entity.info.uuid) hsame
    have hdetached (entity : Entity) : entity.detached.info = entity.info := by
      cases entity <;> rfl
    simp only [Option.map_map, Function.comp_def, hdetached] at hinfo
    simpa only [App.uuid?, App.info?_eq, Option.map_map, Function.comp_def] using hinfo

theorem keptAt (h : Effect before after mutation) (p : Position) :
    before.tree.KeptAt after.tree p := by
  by_cases hp : mutation.target.Covers p
  · intro u u' hu hu'
    rcases h.identified p u' hp hu' with hsame | ⟨hnone, -⟩
    · rw [hu, Option.some.injEq] at hsame
      exact hsame.symm
    · rw [hu] at hnone
      exact nomatch hnone
  · exact (h.sameAt hp).keptAt

variable (h : Effect before after mutation) (h' : Effect before' after' mutation)
variable (hregistry : before'.registry = before.registry)

include h h' hregistry

theorem content_eq (hp : mutation.target.Covers p) :
    (after'.tree.entity? p).map Entity.declared = (after.tree.entity? p).map Entity.declared := by
  rw [h.target p hp, h'.target p hp, hregistry]

theorem uuid?_eq (hp : mutation.target.Covers p)
    (hbefore : before'.tree.uuid? p = before.tree.uuid? p)
    (hsome : (before.tree.info? p).isSome) : after'.tree.uuid? p = after.tree.uuid? p := by
  obtain ⟨info, hinfo⟩ := Option.isSome_iff_exists.mp hsome
  have hold : before.tree.uuid? p = some info.uuid := by rw [App.uuid?, hinfo, Option.map_some]
  have hstands : (after'.tree.uuid? p).isSome = (after.tree.uuid? p).isSome := by
    have hcontent := congrArg Option.isSome (h.content_eq h' hregistry hp)
    simp only [Option.isSome_map] at hcontent
    rw [App.uuid?, App.info?_eq, App.uuid?, App.info?_eq, Option.isSome_map, Option.isSome_map,
      Option.isSome_map, Option.isSome_map, hcontent]
  cases huuid : after.tree.uuid? p with
  | none =>
    rw [huuid] at hstands
    exact Option.not_isSome_iff_eq_none.mp (by rw [hstands]; exact Bool.false_ne_true)
  | some u =>
    rw [huuid] at hstands
    obtain ⟨u', huuid'⟩ := Option.isSome_iff_exists.mp hstands
    rw [huuid', h.keptAt p _ _ hold huuid, h'.keptAt p _ _ (hbefore.trans hold) huuid']

theorem recordsAt_eq (hbefore : ∀ p, mutation.target.Covers p →
      (before'.tree.entity? p).map Entity.declared = (before.tree.entity? p).map Entity.declared)
    (p : Position) :
    Diff.recordsAt false "" (some before.tree) (some after.tree) p =
      Diff.recordsAt false "" (some before'.tree) (some after'.tree) p := by
  by_cases hp : mutation.target.Covers p
  · exact Diff.recordsAt_congr (hbefore p hp) (h.content_eq h' hregistry hp) (h.keptAt p)
      (h'.keptAt p)
  · rw [Diff.recordsAt_eq_nil (h.sameAt hp), Diff.recordsAt_eq_nil (h'.sameAt hp)]

end Effect

theorem log_eq {mode mode' : Mode} {log' : Changelog} (hstore : before.tree.Committed)
    (hstore' : before'.tree.Committed) (hregistry : before'.registry = before.registry)
    (hmutation : mutation.Ordered)
    (hbefore : ∀ p, mutation.target.Covers p →
      (before'.tree.entity? p).map Entity.declared = (before.tree.entity? p).map Entity.declared)
    (hlog : (before.mutate mutation mode).result = .ok log)
    (hlog' : (before'.mutate mutation mode').result = .ok log') : log' = log := by
  obtain ⟨-, edited, hstaged⟩ := exists_staged hstore.ordered hmutation hlog
  obtain ⟨-, edited', hstaged'⟩ := exists_staged hstore'.ordered hmutation hlog'
  have haccepted := hstaged.accepted hmutation
  have haccepted' := hstaged'.accepted hmutation
  have hafter := committed_commit before (haccepted.checked hstore.ordered)
  have hafter' := committed_commit before' (haccepted'.checked hstore'.ordered)
  obtain ⟨positions, hlisting, hrecords⟩ :=
    Diff.trees_listed (rooted hstore.toChecked) (rooted hafter.toChecked)
  obtain ⟨positions', hlisting', hrecords'⟩ :=
    Diff.trees_listed (rooted hstore'.toChecked) (rooted hafter'.toChecked)
  rw [trees_commit hstore haccepted, Except.ok.injEq] at hrecords
  rw [trees_commit hstore' haccepted', Except.ok.injEq] at hrecords'
  have heffect := effect_of_staged hstore hmutation hstaged
  have heffect' := effect_of_staged hstore' hmutation hstaged'
  rw [hrecords, hrecords', Diff.flatMap_recordsAt_eq hlisting hlisting'
    (heffect.recordsAt_eq heffect' hregistry hbefore)]

/-- Either order brings the same records, and the same tree up to the identities of what is new. -/
structure Commute (store : Store) (first second : Mutation) : Prop where
  ofFirst : ((store.mutate second {}).store.mutate first {}).result =
    (store.mutate first {}).result
  ofSecond : ((store.mutate first {}).store.mutate second {}).result =
    (store.mutate second {}).result
  tree : store.tree.knownTo ((store.mutate first {}).store.mutate second {}).store.tree =
    store.tree.knownTo ((store.mutate second {}).store.mutate first {}).store.tree

section

variable {mid mid' : Store} (hapart : first.target.Apart second.target)
variable (hfirst : Effect store mid first) (hsecond : Effect mid after second)
variable (hsecond' : Effect store mid' second) (hfirst' : Effect mid' after' first)

include hapart hfirst hsecond hsecond' hfirst'

theorem Effect.same_at_target (hregistry : mid'.registry = store.registry)
    (hp : first.target.Covers p) :
    (after'.tree.entity? p).map Entity.declared = (after.tree.entity? p).map Entity.declared ∧
      ((store.tree.info? p).isSome → after'.tree.uuid? p = after.tree.uuid? p) := by
  have hp' := hapart.not_covers hp
  have hlater := hsecond.sameAt hp'
  refine ⟨?_, fun hsome => ?_⟩
  · rw [hlater.content, hfirst.content_eq hfirst' hregistry hp]
  · rw [hlater.uuid, hfirst.uuid?_eq hfirst' hregistry hp (hsecond'.sameAt hp').uuid hsome]

theorem Effect.same_everywhere (hregistry : mid.registry = store.registry)
    (hregistry' : mid'.registry = store.registry) (p : Position) :
    (after'.tree.entity? p).map Entity.declared = (after.tree.entity? p).map Entity.declared ∧
      ((store.tree.info? p).isSome → after'.tree.uuid? p = after.tree.uuid? p) := by
  by_cases hp : first.target.Covers p
  · exact Effect.same_at_target hapart hfirst hsecond hsecond' hfirst' hregistry' hp
  · by_cases hp' : second.target.Covers p
    · obtain ⟨hcontent, huuid⟩ := Effect.same_at_target hapart.symm hsecond' hfirst' hfirst hsecond
        hregistry hp'
      exact ⟨hcontent.symm, fun hsome => (huuid hsome).symm⟩
    · have hone := hfirst.sameAt hp
      have htwo := hsecond.sameAt hp'
      have htwo' := hsecond'.sameAt hp'
      have hone' := hfirst'.sameAt hp
      exact ⟨by rw [hone'.content, htwo'.content, htwo.content, hone.content],
        fun _ => by rw [hone'.uuid, htwo'.uuid, htwo.uuid, hone.uuid]⟩

end

theorem Reachable.commute {log' logAfter logAfter' : Changelog} (h : Reachable store)
    (hfirst : first.Ordered) (hsecond : second.Ordered) (hapart : first.target.Apart second.target)
    (hlog : (store.mutate first {}).result = .ok log)
    (hlogAfter : ((store.mutate first {}).store.mutate second {}).result = .ok logAfter)
    (hlog' : (store.mutate second {}).result = .ok log')
    (hlogAfter' : ((store.mutate second {}).store.mutate first {}).result = .ok logAfter') :
    Commute store first second := by
  have hmid := h.mutated hfirst {}
  have hmid' := h.mutated hsecond {}
  have hafter := hmid.mutated hsecond {}
  have hafter' := hmid'.mutated hfirst {}
  have hone := effect_of_mutate h.committed hfirst rfl hlog
  have htwo := effect_of_mutate hmid.committed hsecond rfl hlogAfter
  have htwo' := effect_of_mutate h.committed hsecond rfl hlog'
  have hone' := effect_of_mutate hmid'.committed hfirst rfl hlogAfter'
  have hregistry := store.registry_mutate first {}
  have hregistry' := store.registry_mutate second {}
  have hsame := Effect.same_everywhere hapart hone htwo htwo' hone' hregistry hregistry'
  constructor
  · rw [hlog, hlogAfter', log_eq h.committed hmid'.committed hregistry' hfirst
      (fun p hp => (htwo'.sameAt (hapart.not_covers hp)).content) hlog hlogAfter']
  · rw [hlog', hlogAfter, log_eq h.committed hmid.committed hregistry hsecond
      (fun p hp => (hone.sameAt (hapart.symm.not_covers hp)).content) hlog' hlogAfter]
  · have hdeclared : ((store.mutate first {}).store.mutate second {}).store.tree.declared =
        ((store.mutate second {}).store.mutate first {}).store.tree.declared := by
      apply App.ext_entity? hafter.committed.ordered.declared hafter'.committed.ordered.declared
      intro p
      rw [App.entity?_declared, App.entity?_declared, (hsame p).1]
    exact App.knownTo_eq_of_declared hafter.committed.toChecked hafter'.committed.toChecked
      hafter.connected hafter'.connected hdeclared fun p hold => ((hsame p).2 hold).symm

theorem commute_billing :
    let store := (Fixture.billingStore .unary).1
    let first : Mutation := .create "billing.printer" (.channelType Fixture.invoiceType)
    let second : Mutation := .create "billing.printer" (.channel Fixture.invoices)
    (store.mutate first {}).result =
        .ok [⟨.created .channelType, "billing.printer.Invoice", .none⟩] ∧
      (store.mutate second {}).result =
        .ok [⟨.created .channel, "billing.printer.invoices", .none⟩] ∧
      Commute store first second := by
  intro store first second
  have hlog : (store.mutate first {}).result =
      .ok [⟨.created .channelType, "billing.printer.Invoice", .none⟩] := by decide +kernel
  have hlog' : (store.mutate second {}).result =
      .ok [⟨.created .channel, "billing.printer.invoices", .none⟩] := by decide +kernel
  have hlogAfter : ((store.mutate first {}).store.mutate second {}).result =
      .ok [⟨.created .channel, "billing.printer.invoices", .none⟩] := by decide +kernel
  have hlogAfter' : ((store.mutate second {}).store.mutate first {}).result =
      .ok [⟨.created .channelType, "billing.printer.Invoice", .none⟩] := by decide +kernel
  exact ⟨hlog, hlog', (reachable_billing .unary).commute Dict.ordered_empty Dict.ordered_empty
    (by decide +kernel) hlog hlogAfter hlog' hlogAfter'⟩

end Store

end AppTopology
