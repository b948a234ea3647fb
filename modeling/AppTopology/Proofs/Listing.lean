import AppTopology.Proofs.Field

/-!
The records of two trees are those of the positions where either side has an entity, depth first: an
app before what it holds, its child apps before its leaves.
-/

namespace AppTopology

def Kind.turn : Kind → Nat
  | app => 0
  | channel => 1
  | channelType => 2
  | channelAlias => 3

namespace Item

def kind : Item → Kind
  | app => .app
  | channel _ => .channel
  | channelType _ => .channelType
  | channelAlias _ => .channelAlias

def steps : Item → List (Kind × String)
  | app => []
  | channel name => [(.channel, name)]
  | channelType name => [(.channelType, name)]
  | channelAlias name => [(.channelAlias, name)]

end Item

namespace Position

variable {α : Type} [Leaf α] [LawfulLeaf α] {p q : Position} {scope key key' : String}

def kind (p : Position) : Kind := p.item.kind

def steps (p : Position) : List (Kind × String) := p.place.map (.app, ·) ++ p.item.steps

def names (p : Position) : List String := p.steps.map Prod.snd

def path (scope : String) (p : Position) : String := Scope.under scope p.names

def Earlier (step next : Kind × String) : Prop :=
  step.1.turn < next.1.turn ∨ step.1 = next.1 ∧ step.2 < next.2

def Before (p q : Position) : Prop := List.Lex Earlier p.steps q.steps

@[simp] theorem steps_root : root.steps = [] := rfl

@[simp] theorem steps_inside (key : String) (p : Position) :
    (p.inside key).steps = (.app, key) :: p.steps := rfl

theorem steps_leaf (α : Type) [Leaf α] [LawfulLeaf α] (name : String) :
    steps ⟨[], .ofKind (Leaf.kind α) name⟩ = [(Leaf.kind α, name)] := by
  apply LawfulLeaf.elim (α := α) fun β _ =>
    steps ⟨[], .ofKind (Leaf.kind β) name⟩ = [(Leaf.kind β, name)]
  all_goals rfl

theorem path_inside (scope key : String) (p : Position) :
    (p.inside key).path scope = p.path (Scope.child scope key) := rfl

theorem path_leaf (α : Type) [Leaf α] [LawfulLeaf α] (scope name : String) :
    path scope ⟨[], .ofKind (Leaf.kind α) name⟩ = Scope.child scope name := by
  rw [path, names, steps_leaf]
  rfl

theorem Before.inside (h : p.Before q) (key : String) : (p.inside key).Before (q.inside key) :=
  List.Lex.cons h

theorem before_of_earlier {step next : Kind × String} (hp : p.steps.head? = some step)
    (hq : q.steps.head? = some next) (h : Earlier step next) : p.Before q := by
  obtain ⟨rest, hp⟩ := List.head?_eq_some_iff.mp hp
  obtain ⟨rest', hq⟩ := List.head?_eq_some_iff.mp hq
  rw [Before, hp, hq]
  exact List.Lex.rel h

theorem root_before {step : Kind × String} (hp : p.steps.head? = some step) : root.Before p := by
  obtain ⟨rest, hp⟩ := List.head?_eq_some_iff.mp hp
  rw [Before, hp]
  exact List.Lex.nil

theorem not_before_self (p : Position) : ¬ p.Before p := by
  apply List.lex_irrefl
  rintro step (hturn | ⟨-, hname⟩)
  · exact Nat.lt_irrefl _ hturn
  · exact String.lt_irrefl _ hname

end Position

theorem App.kind_of_entity? {app : App} {p : Position} {entity : Entity}
    (h : app.entity? p = some entity) : entity.kind = p.kind := by
  obtain ⟨other, -, h⟩ := Option.bind_eq_some_iff.mp h
  obtain ⟨place, item⟩ := p
  cases item with
  | app =>
    rw [← Option.some.inj h]
    rfl
  | channel | channelType | channelAlias =>
    obtain ⟨_, -, rfl⟩ := Option.map_eq_some_iff.mp h
    rfl

namespace Diff

variable {α : Type} [Leaf α] [LawfulLeaf α]
variable {old new : Option App} {identity : Bool} {scope key name : String} {change : Change}

def recordsAt (identity : Bool) (scope : String) (old new : Option App) (p : Position) :
    Changelog :=
  entity (identity || p ≠ .root) (p.path scope) (old.bind (·.entity? p)) (new.bind (·.entity? p))

def keySteps (kind : Kind) (names : List String) : List (Kind × String) := names.map (kind, ·)

def steps (old new : Option App) : List (Kind × String) :=
  keySteps .app (Dict.keyUnion (children old) (children new)) ++
  keySteps .channel (Dict.keyUnion (shelf Channel old) (shelf Channel new)) ++
  keySteps .channelType (Dict.keyUnion (shelf ChannelType old) (shelf ChannelType new)) ++
  keySteps .channelAlias (Dict.keyUnion (shelf ChannelAlias old) (shelf ChannelAlias new))

def positions (below : String → List Position) : Kind × String → List Position
  | (.app, key) => (below key).map (Position.inside key)
  | (kind, name) => [⟨[], .ofKind kind name⟩]

structure Listing (old new : Option App) (positions : List Position) : Prop where
  sorted : positions.Pairwise Position.Before
  covers : ∀ p, (old.bind (·.entity? p)).isSome ∨ (new.bind (·.entity? p)).isSome →
    p ∈ positions

theorem pairwise_keySteps (kind : Kind) {β : Type} (d e : Dict β) :
    (keySteps kind (Dict.keyUnion d e)).Pairwise Position.Earlier := by
  rw [keySteps, List.pairwise_map]
  exact (NameSet.ofList (d.keys ++ e.keys)).increasing.imp fun hlt => .inr ⟨rfl, hlt⟩

theorem earlier_of_turn {kind kind' : Kind} (h : kind.turn < kind'.turn)
    {names names' : List String} {step next : Kind × String} (hstep : step ∈ keySteps kind names)
    (hnext : next ∈ keySteps kind' names') : Position.Earlier step next := by
  obtain ⟨_, -, rfl⟩ := List.mem_map.mp hstep
  obtain ⟨_, -, rfl⟩ := List.mem_map.mp hnext
  exact .inl h

theorem pairwise_steps (old new : Option App) : (steps old new).Pairwise Position.Earlier := by
  simp only [steps, List.pairwise_append, pairwise_keySteps, List.mem_append, true_and]
  refine ⟨⟨?_, ?_⟩, ?_⟩
  · exact fun step hstep next hnext => earlier_of_turn (by decide) hstep hnext
  · rintro step (hstep | hstep) next hnext
    · exact earlier_of_turn (by decide) hstep hnext
    · exact earlier_of_turn (by decide) hstep hnext
  · rintro step ((hstep | hstep) | hstep) next hnext
    · exact earlier_of_turn (by decide) hstep hnext
    · exact earlier_of_turn (by decide) hstep hnext
    · exact earlier_of_turn (by decide) hstep hnext

theorem entity?_children (side : Option App) (key : String) (p : Position) :
    side.bind (·.entity? (p.inside key)) = ((children side).get? key).bind (·.entity? p) := by
  rw [get?_children, Option.bind_assoc]
  simp only [App.entity?_inside]

theorem recordsAt_inside (identity : Bool) (scope : String) (old new : Option App) (key : String)
    (p : Position) : recordsAt identity scope old new (p.inside key) =
      recordsAt true (Scope.child scope key) ((children old).get? key) ((children new).get? key)
        p := by
  rw [recordsAt, recordsAt, entity?_children, entity?_children, Position.path_inside,
    decide_eq_true (Position.inside_ne_root key p), Bool.or_true, Bool.true_or]

theorem own_eq_recordsAt (identity : Bool) (scope : String) (old new : Option App) :
    own identity scope old new = recordsAt identity scope old new .root := by
  rw [own_eq_entity, recordsAt, decide_eq_false (by simp), Bool.or_false]
  rfl

theorem leaf_eq_recordsAt (α : Type) [Leaf α] [LawfulLeaf α] (identity : Bool) (scope name : String)
    (old new : Option App) :
    leaf true (Scope.child scope name) ((shelf α old).get? name) ((shelf α new).get? name) =
      recordsAt identity scope old new ⟨[], .ofKind (Leaf.kind α) name⟩ := by
  rw [leaf_eq_entity, recordsAt, Position.path_leaf,
    decide_eq_true (Position.leaf_ne_root (α := α) [] name), Bool.or_true]
  rfl

theorem head?_steps_of_mem_positions {below : String → List Position} {step : Kind × String}
    {p : Position} (h : p ∈ positions below step) : p.steps.head? = some step := by
  obtain ⟨kind, name⟩ := step
  cases kind with
  | app =>
    obtain ⟨q, -, rfl⟩ := List.mem_map.mp h
    rfl
  | channel | channelType | channelAlias => rw [List.mem_singleton.mp h]; rfl

theorem sorted_positions {below : String → List Position}
    (hbelow : ∀ key ∈ Dict.keyUnion (children old) (children new),
      (below key).Pairwise Position.Before) :
    (.root :: (steps old new).flatMap (positions below)).Pairwise Position.Before := by
  rw [List.pairwise_cons, List.pairwise_flatMap]
  refine ⟨?_, ?_, ?_⟩
  · intro p hp
    obtain ⟨step, -, hp⟩ := List.mem_flatMap.mp hp
    exact Position.root_before (head?_steps_of_mem_positions hp)
  · rintro ⟨kind, name⟩ hstep
    cases kind with
    | app =>
      have hkey : name ∈ Dict.keyUnion (children old) (children new) := by
        simpa [steps, keySteps] using hstep
      exact List.pairwise_map.mpr ((hbelow name hkey).imp fun h => h.inside name)
    | channel | channelType | channelAlias => exact List.pairwise_singleton _ _
  · refine (pairwise_steps old new).imp ?_
    intro step next hearlier p hp q hq
    exact Position.before_of_earlier (head?_steps_of_mem_positions hp)
      (head?_steps_of_mem_positions hq) hearlier

theorem isSome_entity?_leaf (α : Type) [Leaf α] [LawfulLeaf α] (side : Option App) (name : String) :
    (side.bind (·.entity? ⟨[], .ofKind (Leaf.kind α) name⟩)).isSome =
      ((shelf α side).get? name).isSome := by
  obtain ⟨embed, hembed, -⟩ := exists_leaf_eq_entity α
  rw [get?_shelf]
  cases side with
  | none => rfl
  | some app => simp only [Option.bind_some, App.entity?_own, hembed.entity?, Option.isSome_map]

theorem mem_keyUnion_shelf (α : Type) [Leaf α] [LawfulLeaf α]
    (h : (old.bind (·.entity? ⟨[], .ofKind (Leaf.kind α) name⟩)).isSome ∨
      (new.bind (·.entity? ⟨[], .ofKind (Leaf.kind α) name⟩)).isSome) :
    name ∈ Dict.keyUnion (shelf α old) (shelf α new) := by
  rwa [Dict.mem_keyUnion, ← isSome_entity?_leaf, ← isSome_entity?_leaf]

theorem mem_flatMap_positions {below : String → List Position}
    (hbelow : ∀ key p, (((children old).get? key).bind (·.entity? p)).isSome ∨
      (((children new).get? key).bind (·.entity? p)).isSome → p ∈ below key) (p : Position)
    (hp : (old.bind (·.entity? p)).isSome ∨ (new.bind (·.entity? p)).isSome) :
    p ∈ .root :: (steps old new).flatMap (positions below) := by
  have hbehind {p : Position} (step : Kind × String) (hstep : step ∈ steps old new)
      (hp : p ∈ positions below step) : p ∈ .root :: (steps old new).flatMap (positions below) :=
    List.mem_cons_of_mem _ (List.mem_flatMap.mpr ⟨step, hstep, hp⟩)
  revert p
  rw [Position.forall_iff, Item.forall_iff]
  refine ⟨⟨fun _ => List.mem_cons_self, ?_, ?_, ?_⟩, ?_⟩
  · intro name hp
    apply hbehind (.channel, name) _ (List.mem_singleton.mpr rfl)
    simp [steps, keySteps, mem_keyUnion_shelf Channel hp]
  · intro name hp
    apply hbehind (.channelType, name) _ (List.mem_singleton.mpr rfl)
    simp [steps, keySteps, mem_keyUnion_shelf ChannelType hp]
  · intro name hp
    apply hbehind (.channelAlias, name) _ (List.mem_singleton.mpr rfl)
    simp [steps, keySteps, mem_keyUnion_shelf ChannelAlias hp]
  · intro key p hp
    rw [entity?_children, entity?_children] at hp
    have hkey : key ∈ Dict.keyUnion (children old) (children new) := by
      rw [Dict.mem_keyUnion]
      exact hp.imp Option.isSome_of_isSome_bind Option.isSome_of_isSome_bind
    apply hbehind (.app, key) _ (List.mem_map.mpr ⟨p, hbelow key p hp, rfl⟩)
    simp [steps, keySteps, hkey]

theorem named_children {side : Option App} (hside : ∀ app ∈ side, app.Named scope) :
    ∀ child ∈ (children side).get? key, child.Named (Scope.child scope key) := by
  intro child hchild
  rw [get?_children] at hchild
  obtain ⟨app, happ, hchild⟩ := Option.bind_eq_some_iff.mp hchild
  exact (hside app happ).below hchild

theorem subtree_listed (hscope : Scope.isScope scope) (hold : ∀ app ∈ old, app.Named scope)
    (hnew : ∀ app ∈ new, app.Named scope) (identity : Bool) : ∃ positions,
      Listing old new positions ∧
        subtree identity scope old new =
          .ok (positions.flatMap (recordsAt identity scope old new)) := by
  induction old, new using subtree_induction generalizing scope identity with
  | step old new ih =>
    have hbelow (key : String) : ∃ positions,
        ((children old).get? key).isSome ∨ ((children new).get? key).isSome →
          Listing ((children old).get? key) ((children new).get? key) positions ∧
            subtree true (Scope.child scope key) ((children old).get? key)
                ((children new).get? key) =
              .ok (positions.flatMap (recordsAt true (Scope.child scope key)
                ((children old).get? key) ((children new).get? key))) := by
      by_cases hkey : ((children old).get? key).isSome ∨ ((children new).get? key).isSome
      · have hadmits : Scope.Admits scope key :=
          hkey.elim (admits_of_isSome_children hold) (admits_of_isSome_children hnew)
        obtain ⟨positions, hlisting⟩ := ih key hkey (hadmits.isScope_child hscope)
          (named_children hold) (named_children hnew) true
        exact ⟨positions, fun _ => hlisting⟩
      · exact ⟨[], fun h => absurd h hkey⟩
    choose below hbelow using hbelow
    refine ⟨.root :: (steps old new).flatMap (positions below), ⟨?_, ?_⟩, ?_⟩
    · apply sorted_positions
      intro key hkey
      exact (hbelow key (Dict.mem_keyUnion.mp hkey)).1.sorted
    · apply mem_flatMap_positions
      intro key p hp
      exact (hbelow key (hp.imp Option.isSome_of_isSome_bind Option.isSome_of_isSome_bind)).1.covers
        p hp
    · rw [subtree_ok hscope hold hnew (fun key hkey => (hbelow key hkey).2)
        (leaves_ok hscope hold hnew) (leaves_ok hscope hold hnew) (leaves_ok hscope hold hnew)]
      simp only [own_eq_recordsAt, leaf_eq_recordsAt _ identity]
      simp only [steps, keySteps, positions, List.flatMap_cons, List.flatMap_append,
        List.flatMap_map, List.flatMap_assoc, List.flatMap_nil, List.append_nil,
        List.append_assoc, recordsAt_inside]
      rfl

theorem trees_listed {path : String} (hold : ∀ app ∈ old, app.Named path ∧ app.info.path = .ok path)
    (hnew : ∀ app ∈ new, app.Named path ∧ app.info.path = .ok path) : ∃ positions,
      Listing old new positions ∧
        trees old new = .ok (positions.flatMap (recordsAt false path old new)) := by
  by_cases hsome : old.isSome ∨ new.isSome
  · have hscope : Scope.isScope path := by
      rcases hsome with hsome | hsome
      · obtain ⟨app, happ⟩ := Option.isSome_iff_exists.mp hsome
        exact Scope.isScope_append (hold app happ).2
      · obtain ⟨app, happ⟩ := Option.isSome_iff_exists.mp hsome
        exact Scope.isScope_append (hnew app happ).2
    rw [trees_eq hsome (fun app happ => (hold app happ).2) fun app happ => (hnew app happ).2]
    exact subtree_listed hscope (fun app happ => (hold app happ).1)
      (fun app happ => (hnew app happ).1) false
  · simp only [not_or, Option.not_isSome_iff_eq_none] at hsome
    obtain ⟨rfl, rfl⟩ := hsome
    exact ⟨[], ⟨.nil, by simp⟩, rfl⟩

variable {p : Position}

theorem kind_of_bind_entity? (side : Option App) (p : Position) :
    ∀ entity ∈ side.bind (·.entity? p), entity.kind = p.kind := by
  intro entity hentity
  obtain ⟨app, -, hentity⟩ := Option.bind_eq_some_iff.mp hentity
  exact App.kind_of_entity? hentity

theorem path_and_subject_of_mem_recordsAt (h : change ∈ recordsAt identity scope old new p) :
    change.path = p.path scope ∧ change.kind.subject = p.kind :=
  path_and_subject_of_mem_entity (kind_of_bind_entity? old p) (kind_of_bind_entity? new p) h

theorem mem_recordsAt : change ∈ recordsAt identity scope old new p ↔
    change = ⟨.created p.kind, p.path scope, .none⟩ ∧ old.bind (·.entity? p) = none ∧
        (new.bind (·.entity? p)).isSome ∨
      change = ⟨.deleted p.kind, p.path scope, .none⟩ ∧ (old.bind (·.entity? p)).isSome ∧
        new.bind (·.entity? p) = none ∨
      ∃ o n, old.bind (·.entity? p) = some o ∧ new.bind (·.entity? p) = some n ∧
        change.path = p.path scope ∧
          Reports (identity || p ≠ .root) o n change.kind change.details := by
  have hold := kind_of_bind_entity? old p
  have hnew := kind_of_bind_entity? new p
  rw [recordsAt]
  cases ho : old.bind (·.entity? p) with
  | none =>
    cases hn : new.bind (·.entity? p) with
    | none => simp [entity]
    | some n => simp [mem_entity_none_some, hnew n hn]
  | some o =>
    cases hn : new.bind (·.entity? p) with
    | none => simp [mem_entity_some_none, hold o ho]
    | some n =>
      rw [mem_entity ((hold o ho).trans (hnew n hn).symm)]
      simp

theorem stands_of_mem_recordsAt (h : change ∈ recordsAt identity scope old new p) :
    (old.bind (·.entity? p)).isSome ∨ (new.bind (·.entity? p)).isSome := by
  by_contra hnone
  simp only [not_or, Option.not_isSome_iff_eq_none] at hnone
  rw [recordsAt, hnone.1, hnone.2] at h
  exact absurd h List.not_mem_nil

theorem mem_flatMap_recordsAt {positions : List Position} (h : Listing old new positions) :
    change ∈ positions.flatMap (recordsAt identity scope old new) ↔
      ∃ p, change ∈ recordsAt identity scope old new p := by
  rw [List.mem_flatMap]
  constructor
  · exact fun ⟨p, _, hp⟩ => ⟨p, hp⟩
  · rintro ⟨p, hp⟩
    exact ⟨p, h.covers p (stands_of_mem_recordsAt hp), hp⟩

end Diff

end AppTopology
