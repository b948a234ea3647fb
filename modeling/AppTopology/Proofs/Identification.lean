import AppTopology.Proofs.Leaf
import AppTopology.Staging.Identity

namespace AppTopology

variable {α β : Type} {mint : Nat → String}

namespace App

theorem succeedOwn_eq (before : Option App.Own) (own : App.Own) :
    succeedOwn before own =
      own.mapInfo fun item info => info.succeed (before.bind (·.info? item)) := by
  cases before <;> rfl

theorem succeedAll_eq (before : Option App) (children : List (String × App)) :
    succeedAll before children =
      children.map fun entry => (entry.1, entry.2.succeed (before.bind (·.child? entry.1))) := by
  induction children with
  | nil => rfl
  | cons entry rest ih => rw [succeedAll, ih, List.map_cons]

theorem succeed_eq (before : Option App) (app : App) :
    app.succeed before = app.mapInfo fun p info => info.succeed (before.bind (·.info? p)) := by
  induction app using App.induction generalizing before with
  | node own apps ih =>
    obtain ⟨children⟩ := apps
    rw [succeed, succeedOwn_eq, succeedAll_eq, mapInfo_mk]
    congr 1
    · cases before <;> rfl
    · rw [Dict.mapWithKey]
      congr 1
      apply List.map_congr_left
      rintro ⟨key, child⟩ hmem
      rw [ih key child hmem]
      simp only [info?_inside, Option.bind_assoc]

end App

structure Numbers (num : α → Nat) (needs : α → Prop) (n n' : Nat) : Prop where
  le : n ≤ n'
  range : ∀ a, needs a → n ≤ num a ∧ num a < n'
  injective : ∀ a b, needs a → needs b → num a = num b → a = b

namespace Numbers

variable {num : α → Nat} {needs needs' : α → Prop} {n n' n'' : Nat}

theorem append (h : Numbers num needs n n') (h' : Numbers num needs' n' n'') :
    Numbers num (fun a => needs a ∨ needs' a) n n'' where
  le := Nat.le_trans h.le h'.le
  range := by
    have hle := h.le
    have hle' := h'.le
    rintro a (ha | ha)
    · have := h.range a ha
      omega
    · have := h'.range a ha
      omega
  injective := by
    rintro a b (ha | ha) (hb | hb) heq
    · exact h.injective a b ha hb heq
    · have := h.range a ha
      have := h'.range b hb
      omega
    · have := h'.range a ha
      have := h.range b hb
      omega
    · exact h'.injective a b ha hb heq

theorem mono (h : Numbers num needs n n') (hneeds : ∀ a, needs' a → needs a) :
    Numbers num needs' n n' where
  le := h.le
  range a ha := h.range a (hneeds a ha)
  injective a b ha hb := h.injective a b (hneeds a ha) (hneeds b hb)

theorem image (h : Numbers num needs n n') (embed : α → β) (num' : β → Nat)
    (hnum : ∀ a, num' (embed a) = num a) :
    Numbers num' (fun b => ∃ a, b = embed a ∧ needs a) n n' where
  le := h.le
  range := by
    rintro _ ⟨a, rfl, ha⟩
    rw [hnum]
    exact h.range a ha
  injective := by
    rintro _ _ ⟨a, rfl, ha⟩ ⟨b, rfl, hb⟩ heq
    rw [hnum, hnum] at heq
    rw [h.injective a b ha hb heq]

end Numbers

theorem run_bind_eq {x : StateM Nat α} {f : α → StateM Nat β} {a : α} {n n' : Nat}
    (h : x.run n = (a, n')) : (x >>= f).run n = (f a).run n' := by
  rw [StateT.run_bind, h]
  rfl

theorem exists_numbers_mapM {step : α → StateM Nat α} {needs : α → β → Prop}
    {number : (β → Nat) → α → α} {entries : List (String × α)}
    (hkeys : (entries.map Prod.fst).Pairwise (· < ·))
    (h : ∀ key value, (key, value) ∈ entries → ∀ n, ∃ num n',
      (step value).run n = (number num value, n') ∧ Numbers num (needs value) n n') (n : Nat) :
    ∃ (num : String × β → Nat) (n' : Nat),
      (entries.mapM fun entry => do
        let value ← step entry.2
        return (entry.1, value) : StateM Nat _).run n =
          (entries.map fun entry => (entry.1, number (fun b => num (entry.1, b)) entry.2), n') ∧
      Numbers num (fun a => ∃ value, (a.1, value) ∈ entries ∧ needs value a.2) n n' := by
  induction entries generalizing n with
  | nil => exact ⟨fun _ => n, n, rfl, ⟨Nat.le_refl n, by simp, by simp⟩⟩
  | cons entry rest ih =>
    obtain ⟨key, value⟩ := entry
    simp only [List.map_cons, List.pairwise_cons] at hkeys
    have hne : ∀ key' value', (key', value') ∈ rest → key' ≠ key := by
      rintro key' value' hmem rfl
      exact String.lt_irrefl key' (hkeys.1 key' (List.mem_map.mpr ⟨_, hmem, rfl⟩))
    obtain ⟨num, n', hrun, hnum⟩ := h key value List.mem_cons_self n
    obtain ⟨nums, n'', hruns, hnums⟩ :=
      ih hkeys.2 (fun key value hmem => h key value (List.mem_cons_of_mem _ hmem)) n'
    -- No key comes twice, so a key alone tells the numbers of the first value from the others.
    let all (a : String × β) : Nat := if a.1 = key then num a.2 else nums a
    have hhead : Numbers all (fun a => ∃ b, a = (key, b) ∧ needs value b) n n' :=
      hnum.image (fun b => (key, b)) all fun b => if_pos rfl
    have htail : Numbers all
        (fun a => ∃ value, (a.1, value) ∈ rest ∧ needs value a.2) n' n'' := by
      refine ⟨hnums.le, ?_, ?_⟩
      · rintro a ⟨value', hmem, hneeds⟩
        have hall : all a = nums a := if_neg (hne _ _ hmem)
        rw [hall]
        exact hnums.range a ⟨value', hmem, hneeds⟩
      · rintro a b ⟨value', hmem, hneeds⟩ ⟨value'', hmem', hneeds'⟩ heq
        have hall : all a = nums a := if_neg (hne _ _ hmem)
        have hall' : all b = nums b := if_neg (hne _ _ hmem')
        rw [hall, hall'] at heq
        exact hnums.injective a b ⟨value', hmem, hneeds⟩ ⟨value'', hmem', hneeds'⟩ heq
    refine ⟨all, n'', ?_, (hhead.append htail).mono ?_⟩
    · have hrest : (rest.map fun entry => (entry.1, number (fun b => all (entry.1, b)) entry.2)) =
          rest.map fun entry => (entry.1, number (fun b => nums (entry.1, b)) entry.2) := by
        apply List.map_congr_left
        rintro ⟨key', value'⟩ hmem
        simp only [all, if_neg (hne key' value' hmem)]
      have hstep : (do
            let value ← step value
            return (key, value) : StateM Nat _).run n = ((key, number num value), n') :=
        run_bind_eq hrun
      rw [List.mapM_cons, List.map_cons, hrest, run_bind_eq hstep, run_bind_eq hruns]
      simp only [all, if_pos]
      rfl
    · rintro ⟨key', b⟩ ⟨value', hmem, hneeds⟩
      rcases List.mem_cons.mp hmem with heq | hmem
      · injection heq with hkey hvalue
        subst hkey hvalue
        exact Or.inl ⟨b, rfl, hneeds⟩
      · exact Or.inr ⟨value', hmem, hneeds⟩

def Metadata.identifiedAs (uuid : String) (info : Metadata) : Metadata :=
  if info.hasIdentity then info else { info with uuid }

theorem Metadata.run_identify (mint : Nat → String) (info : Metadata) (n : Nat) :
    ∃ n', (info.identify mint).run n = (info.identifiedAs (mint n), n') ∧
      Numbers (fun _ : Unit => n) (fun _ => ¬ info.hasIdentity) n n' := by
  unfold identify identifiedAs
  by_cases h : info.hasIdentity
  · simp only [h]
    exact ⟨n, rfl, ⟨Nat.le_refl n, by simp, by simp⟩⟩
  · simp only [h]
    exact ⟨n + 1, rfl, ⟨Nat.le_succ n, by simp, by simp⟩⟩

namespace App

theorem run_identifyShelf {α : Type} [Leaf α] (mint : Nat → String) {shelf : Dict α}
    (hshelf : shelf.Ordered) (n : Nat) :
    ∃ (num : String → Nat) (n' : Nat), (identifyShelf mint shelf).run n =
        (shelf.mapWithKey fun name leaf =>
          Leaf.withInfo leaf ((Leaf.info leaf).identifiedAs (mint (num name))), n') ∧
      Numbers num (fun name => ∃ leaf, shelf.get? name = some leaf ∧
        ¬ (Leaf.info leaf).hasIdentity) n n' := by
  let step (leaf : α) : StateM Nat α := do
    let info ← (Leaf.info leaf).identify mint
    return Leaf.withInfo leaf info
  let number (num : Unit → Nat) (leaf : α) : α :=
    Leaf.withInfo leaf ((Leaf.info leaf).identifiedAs (mint (num ())))
  have hstep : ∀ name leaf, (name, leaf) ∈ shelf.entries → ∀ n, ∃ num n',
      (step leaf).run n = (number num leaf, n') ∧
        Numbers num (fun _ => ¬ (Leaf.info leaf).hasIdentity) n n' := by
    intro name leaf _ n
    obtain ⟨n', hrun, hnum⟩ := (Leaf.info leaf).run_identify mint n
    exact ⟨_, n', run_bind_eq hrun, hnum⟩
  obtain ⟨num, n', hrun, hnum⟩ := exists_numbers_mapM hshelf hstep n
  refine ⟨fun name => num (name, ()), n', ?_, hnum.le, ?_, ?_⟩
  · rw [identifyShelf]
    simp only [step, bind_assoc, pure_bind] at hrun
    rw [run_bind_eq hrun]
    rfl
  · rintro name ⟨leaf, hleaf, hneeds⟩
    exact hnum.range (name, ()) ⟨leaf, Dict.mem_of_get? hleaf, hneeds⟩
  · rintro name name' ⟨leaf, hleaf, hneeds⟩ ⟨leaf', hleaf', hneeds'⟩ heq
    have h := hnum.injective (name, ()) (name', ()) ⟨leaf, Dict.mem_of_get? hleaf, hneeds⟩
      ⟨leaf', Dict.mem_of_get? hleaf', hneeds'⟩ heq
    exact congrArg Prod.fst h

theorem identifyAll_eq (mint : Nat → String) (children : List (String × App)) :
    identifyAll mint children = children.mapM fun entry => do
      let app ← entry.2.identify mint
      return (entry.1, app) := by
  induction children with
  | nil => rfl
  | cons entry rest ih =>
    rw [identifyAll, List.mapM_cons, ih]
    simp only [bind_assoc, pure_bind]

theorem run_identify {app : App} (mint : Nat → String) (happ : app.Ordered) (n : Nat) :
    ∃ (num : Position → Nat) (n' : Nat), (app.identify mint).run n =
        (app.mapInfo fun p => Metadata.identifiedAs (mint (num p)), n') ∧
      Numbers num (fun p => ∃ info, app.info? p = some info ∧ ¬ info.hasIdentity) n n' := by
  induction app using App.induction generalizing n with
  | node own apps ih =>
    obtain ⟨-, hchannels, htypes, haliases, -⟩ := happ.own
    obtain ⟨n1, hinfo, hnum⟩ := own.info.run_identify mint n
    obtain ⟨numChild, n2, happs, hnumChild⟩ := exists_numbers_mapM happ.apps
      (fun key child hmem => ih key child hmem (happ.of_mem hmem)) n1
    obtain ⟨numChannel, n3, hchannel, hnumChannel⟩ := run_identifyShelf mint hchannels.1 n2
    obtain ⟨numType, n4, htype, hnumType⟩ := run_identifyShelf mint htypes.1 n3
    obtain ⟨numAlias, n5, halias, hnumAlias⟩ := run_identifyShelf mint haliases.1 n4
    let all : Position → Nat
      | ⟨[], .app⟩ => n
      | ⟨[], .channel name⟩ => numChannel name
      | ⟨[], .channelType name⟩ => numType name
      | ⟨[], .channelAlias name⟩ => numAlias name
      | ⟨key :: place, item⟩ => numChild (key, ⟨place, item⟩)
    refine ⟨all, n5, ?_, ?_⟩
    · obtain ⟨children⟩ := apps
      rw [identify, identifyAll_eq, run_bind_eq hinfo, run_bind_eq happs, run_bind_eq hchannel,
        run_bind_eq htype, run_bind_eq halias, mapInfo_mk]
      rfl
    · have hself := hnum.image (fun _ => (⟨[], .app⟩ : Position)) all fun _ => rfl
      have hbelow := hnumChild.image (fun a => a.2.inside a.1) all fun _ => rfl
      have hchannels := hnumChannel.image (fun name => ⟨[], .channel name⟩) all fun _ => rfl
      have htypes := hnumType.image (fun name => ⟨[], .channelType name⟩) all fun _ => rfl
      have haliases := hnumAlias.image (fun name => ⟨[], .channelAlias name⟩) all fun _ => rfl
      refine ((((hself.append hbelow).append hchannels).append htypes).append haliases).mono ?_
      rintro ⟨place, item⟩ ⟨info, hget, hneeds⟩
      cases place with
      | cons key place =>
        change info? _ (Position.inside key ⟨place, item⟩) = some info at hget
        rw [info?_inside, Option.bind_eq_some_iff] at hget
        obtain ⟨child, hchild, hget⟩ := hget
        exact .inl (.inl (.inl (.inr
          ⟨(key, ⟨place, item⟩), rfl, child, mem_of_child? hchild, info, hget, hneeds⟩)))
      | nil =>
        cases item with
        | app =>
          injection hget with hget
          exact .inl (.inl (.inl (.inl ⟨(), rfl, hget ▸ hneeds⟩)))
        | channel name =>
          obtain ⟨leaf, hleaf, rfl⟩ := Option.map_eq_some_iff.mp hget
          exact .inl (.inl (.inr ⟨name, rfl, leaf, hleaf, hneeds⟩))
        | channelType name =>
          obtain ⟨leaf, hleaf, rfl⟩ := Option.map_eq_some_iff.mp hget
          exact .inl (.inr ⟨name, rfl, leaf, hleaf, hneeds⟩)
        | channelAlias name =>
          obtain ⟨leaf, hleaf, rfl⟩ := Option.map_eq_some_iff.mp hget
          exact .inr ⟨name, rfl, leaf, hleaf, hneeds⟩

end App

end AppTopology
