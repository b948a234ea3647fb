import AppTopology.Proofs.Addresses
import AppTopology.Proofs.Settlement

namespace AppTopology

theorem mapM_eq_pure {m : Type → Type} [Monad m] [LawfulMonad m] {α : Type} {xs : List α}
    {step : α → m α} (h : ∀ x ∈ xs, step x = pure x) : xs.mapM step = pure xs := by
  induction xs with
  | nil => exact List.mapM_nil
  | cons x xs ih =>
    simp only [List.mem_cons, forall_eq_or_imp] at h
    rw [List.mapM_cons, h.1, ih h.2]
    simp only [pure_bind]

theorem Metadata.identify_of_hasIdentity {info : Metadata} (h : info.hasIdentity)
    (mint : Nat → String) : info.identify mint = pure info := by
  rw [identify, if_pos h]

namespace App

variable {α : Type} [Leaf α] {shelf : Dict α} {app tree : App}

theorem unidentifiedInfo_eq_nil {info : Metadata} :
    unidentifiedInfo info = [] ↔ info.hasIdentity := by
  unfold unidentifiedInfo
  split <;> simp [*]

theorem unidentifiedShelf_eq_nil : unidentifiedShelf shelf = [] ↔
    ∀ leaf ∈ shelf.values, (Leaf.info leaf).hasIdentity := by
  simp only [unidentifiedShelf, List.flatMap_eq_nil_iff, unidentifiedInfo_eq_nil]

theorem identifyShelf_of_unidentified [LawfulLeaf α] (h : unidentifiedShelf shelf = [])
    (mint : Nat → String) : identifyShelf mint shelf = pure shelf := by
  have hself : ∀ leaf : α, Leaf.withInfo leaf (Leaf.info leaf) = leaf :=
    LawfulLeaf.elim (α := α) (fun β _ => ∀ leaf : β, Leaf.withInfo leaf (Leaf.info leaf) = leaf)
      (fun _ => rfl) (fun _ => rfl) fun _ => rfl
  rw [identifyShelf, mapM_eq_pure, pure_bind]
  rintro ⟨name, leaf⟩ hmem
  have hleaf := unidentifiedShelf_eq_nil.mp h leaf (List.mem_map.mpr ⟨_, hmem, rfl⟩)
  dsimp only
  rw [Metadata.identify_of_hasIdentity hleaf, pure_bind, hself]

theorem identify_of_unidentified (h : app.unidentified = []) (mint : Nat → String) :
    app.identify mint = pure app := by
  induction app using App.induction with
  | node own apps ih =>
    obtain ⟨children⟩ := apps
    simp only [unidentified, unidentifiedAll_eq, List.append_eq_nil_iff, List.flatMap_eq_nil_iff,
      unidentifiedInfo_eq_nil] at h
    obtain ⟨⟨⟨⟨hinfo, hbelow⟩, hchannels⟩, htypes⟩, haliases⟩ := h
    have hchildren : identifyAll mint children = pure children := by
      rw [identifyAll_eq, mapM_eq_pure]
      rintro ⟨key, child⟩ hmem
      rw [ih key child hmem (hbelow _ hmem), pure_bind]
    rw [identify, Metadata.identify_of_hasIdentity hinfo, hchildren,
      identifyShelf_of_unidentified hchannels, identifyShelf_of_unidentified htypes,
      identifyShelf_of_unidentified haliases]
    simp only [pure_bind]

theorem unidentified_eq_nil (happ : app.Ordered)
    (h : ∀ p info, app.info? p = some info → info.hasIdentity) : app.unidentified = [] := by
  induction app using App.induction with
  | node own apps ih =>
    obtain ⟨children⟩ := apps
    obtain ⟨hown, hbelow⟩ := (forall_info?_iff _).mp h
    obtain ⟨-, hchannels, htypes, haliases, -⟩ := happ.own
    have hshelf {α : Type} [Leaf α] [LawfulLeaf α] {shelf : Dict α} (hshelf : shelf.Ordered)
        (hleaf : ∀ name leaf, shelf.get? name = some leaf → (Leaf.info leaf).hasIdentity) :
        unidentifiedShelf shelf = [] := by
      rw [unidentifiedShelf_eq_nil]
      intro leaf hmem
      obtain ⟨⟨name, _⟩, hentry, rfl⟩ := List.mem_map.mp hmem
      exact hleaf name _ (hshelf.get?_of_mem hentry)
    simp only [unidentified, unidentifiedAll_eq, List.append_eq_nil_iff, List.flatMap_eq_nil_iff,
      unidentifiedInfo_eq_nil]
    refine ⟨⟨⟨⟨hown .app own.info rfl, ?_⟩, hshelf hchannels.1 ?_⟩, hshelf htypes.1 ?_⟩,
      hshelf haliases.1 ?_⟩
    · rintro ⟨key, child⟩ hmem
      exact ih key child hmem (happ.of_mem hmem) (hbelow key child (happ.child? hmem))
    · exact fun name leaf hleaf => hown (.channel name) _ (congrArg (Option.map _) hleaf)
    · exact fun name leaf hleaf => hown (.channelType name) _ (congrArg (Option.map _) hleaf)
    · exact fun name leaf hleaf => hown (.channelAlias name) _ (congrArg (Option.map _) hleaf)

/-- Every pass of an opening accepts the tree, and leaves it and the supply as they are. -/
structure Stable (tree : App) : Prop where
  normalize : tree.normalize = .ok tree
  validate : tree.validate = .ok ()
  identify : ∀ supply : Supply, supply.identify tree = (tree, supply)
  issues : ∀ supply : Supply, supply.issues tree = []
  connect : tree.connect = tree

theorem Committed.stable (h : tree.Committed) (hconnect : tree.connect = tree) :
    tree.Stable := by
  have hidentified : tree.unidentified = [] := by
    refine unidentified_eq_nil h.ordered fun p info hinfo => ?_
    simpa [Metadata.hasIdentity] using h.identified p info hinfo
  constructor
  · rw [normalize_eq_ok h.ordered]
    refine ⟨fun p info hinfo => .inr ?_, h.filed.symm⟩
    rw [← h.info_eq hinfo]
    rfl
  · exact h.valid
  · intro supply
    rw [Supply.identify, identify_of_unidentified hidentified]
    rfl
  · intro supply
    rw [Supply.issues, hidentified]
    rfl
  · exact hconnect

theorem Stable.commit (h : tree.Stable) (store : Store) :
    store.commit tree = { store with tree } := by
  rw [Store.commit, h.identify]
  dsimp only
  rw [h.connect]

theorem Stable.restore (h : tree.Stable) (registry : Registry) (supply : Supply) :
    Store.restore tree registry supply = .ok ⟨tree, registry, supply⟩ := by
  have hroot : Store.checkRoot tree = .ok tree := by
    simp only [Store.checkRoot, Check.bind_eq_ok, Check.pure_eq_ok]
    exact ⟨tree, h.normalize, (), h.validate, rfl⟩
  simp only [Store.restore, Check.bind_eq_ok, Check.pure_eq_ok]
  exact ⟨tree, hroot, h.commit _⟩

end App

namespace Store

variable {store : Store}

theorem Reachable.snapshot_restores (h : Reachable store) :
    (store.getApp false "").result = .ok store.tree ∧ store.tree.Stable ∧
      ∀ registry supply, Store.restore store.tree registry supply =
        .ok ⟨store.tree, registry, supply⟩ := by
  have hstable := h.committed.stable h.connected
  exact ⟨getApp_eq_ok.mpr ⟨Scope.isScope_empty, rfl⟩, hstable, hstable.restore⟩

theorem snapshot_restores_billing :
    let store := (Fixture.billingStore .unary).1
    Reachable store ∧ (store.getApp false "").result = .ok store.tree ∧ store.tree.Stable ∧
      ∀ registry supply, Store.restore store.tree registry supply =
        .ok ⟨store.tree, registry, supply⟩ := by
  intro store
  have hreachable := reachable_billing .unary
  exact ⟨hreachable, hreachable.snapshot_restores⟩

end Store

end AppTopology
