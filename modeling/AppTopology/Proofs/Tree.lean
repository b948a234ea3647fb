import AppTopology.Entity.Ordered
import AppTopology.Entity.Tree
import AppTopology.Proofs.Dict

namespace AppTopology.App

variable {app child other : App} {key : String} {place rest : List String}

mutual

theorem induction {motive : App → Prop}
    (node : ∀ own apps, (∀ key child, (key, child) ∈ apps.entries → motive child) →
      motive ⟨own, apps⟩) : ∀ app, motive app
  | ⟨own, ⟨children⟩⟩ => node own ⟨children⟩ (inductionAll node children)

theorem inductionAll {motive : App → Prop}
    (node : ∀ own apps, (∀ key child, (key, child) ∈ apps.entries → motive child) →
      motive ⟨own, apps⟩) :
    ∀ children : List (String × App), ∀ key child, (key, child) ∈ children → motive child
  | [], _, _, h => nomatch h
  | (_, app) :: rest, key, child, h => by
    rcases List.mem_cons.mp h with heq | h
    · injection heq with _ hchild
      exact hchild ▸ induction node app
    · exact inductionAll node rest key child h

end

@[simp] theorem at?_nil (app : App) : app.at? [] = some app := rfl

theorem at?_cons (app : App) (key : String) (place : List String) :
    app.at? (key :: place) = (app.child? key).bind (·.at? place) := rfl

theorem at?_append (app : App) (place rest : List String) :
    app.at? (place ++ rest) = (app.at? place).bind (·.at? rest) := by
  induction place generalizing app with
  | nil => rfl
  | cons key place ih =>
    rw [List.cons_append, at?_cons, at?_cons]
    cases app.child? key with
    | none => rfl
    | some child => exact ih child

theorem at?_singleton (app : App) (key : String) : app.at? [key] = app.child? key := by
  rw [at?_cons]
  cases app.child? key <;> rfl

theorem at?_concat (h : app.at? place = some other) (key : String) :
    app.at? (place ++ [key]) = other.child? key := by
  rw [at?_append, h, Option.bind_some, at?_singleton]

theorem mem_of_child? (h : app.child? key = some child) : (key, child) ∈ app.apps.entries :=
  Dict.mem_of_get? h

theorem Ordered.own (h : app.Ordered) : app.own.Ordered := (ordered_iff.mp h).1

theorem Ordered.apps (h : app.Ordered) : app.apps.Ordered := (ordered_iff.mp h).2.1

theorem Ordered.of_mem (h : app.Ordered) (hmem : (key, child) ∈ app.apps.entries) :
    child.Ordered :=
  (ordered_iff.mp h).2.2 _ hmem

theorem Ordered.child? (h : app.Ordered) (hmem : (key, child) ∈ app.apps.entries) :
    app.child? key = some child :=
  h.apps.get?_of_mem hmem

theorem Ordered.at? (h : app.Ordered) (hplace : app.at? place = some other) : other.Ordered := by
  induction place generalizing app with
  | nil =>
    injection hplace with heq
    exact heq ▸ h
  | cons key place ih =>
    rw [at?_cons, Option.bind_eq_some_iff] at hplace
    obtain ⟨child, hchild, hplace⟩ := hplace
    exact ih (h.of_mem (mem_of_child? hchild)) hplace

mutual

def mapOwn (f : List String → App.Own → App.Own) : App → App
  | ⟨own, ⟨children⟩⟩ => ⟨f [] own, ⟨mapOwnAll f children⟩⟩

def mapOwnAll (f : List String → App.Own → App.Own) :
    List (String × App) → List (String × App)
  | [] => []
  | (key, app) :: rest => (key, app.mapOwn fun place => f (key :: place)) :: mapOwnAll f rest

end

variable {f g : List String → App.Own → App.Own}

theorem mapOwnAll_eq (f : List String → App.Own → App.Own) (children : List (String × App)) :
    mapOwnAll f children =
      children.map fun entry => (entry.1, entry.2.mapOwn fun place => f (entry.1 :: place)) := by
  induction children with
  | nil => rfl
  | cons entry rest ih => rw [mapOwnAll, ih, List.map_cons]

theorem mapOwn_mk (f : List String → App.Own → App.Own) (own : App.Own) (apps : Dict App) :
    mapOwn f ⟨own, apps⟩ =
      ⟨f [] own, apps.mapWithKey fun key child => child.mapOwn fun place => f (key :: place)⟩ := by
  rw [mapOwn, mapOwnAll_eq]
  rfl

@[simp] theorem own_mapOwn (f : List String → App.Own → App.Own) (app : App) :
    (app.mapOwn f).own = f [] app.own := by
  obtain ⟨own, apps⟩ := app
  rw [mapOwn_mk]

@[simp] theorem apps_mapOwn (f : List String → App.Own → App.Own) (app : App) :
    (app.mapOwn f).apps =
      app.apps.mapWithKey fun key child => child.mapOwn fun place => f (key :: place) := by
  obtain ⟨own, apps⟩ := app
  rw [mapOwn_mk]

theorem child?_mapOwn (f : List String → App.Own → App.Own) (app : App) (key : String) :
    (app.mapOwn f).child? key =
      (app.child? key).map fun child => child.mapOwn fun place => f (key :: place) := by
  rw [App.child?, apps_mapOwn, Dict.get?_mapWithKey]
  rfl

theorem at?_mapOwn (f : List String → App.Own → App.Own) (app : App) (place : List String) :
    (app.mapOwn f).at? place =
      (app.at? place).map fun other => other.mapOwn fun rest => f (place ++ rest) := by
  induction place generalizing app f with
  | nil => rfl
  | cons key place ih =>
    rw [at?_cons, at?_cons, child?_mapOwn]
    cases app.child? key with
    | none => rfl
    | some child => exact ih (fun rest => f (key :: rest)) child

theorem mapOwn_congr (happ : app.Ordered)
    (h : ∀ place other, app.at? place = some other → f place other.own = g place other.own) :
    app.mapOwn f = app.mapOwn g := by
  induction app using App.induction generalizing f g with
  | node own apps ih =>
    rw [mapOwn_mk, mapOwn_mk]
    congr 1
    · exact h [] _ rfl
    · apply Dict.mapWithKey_congr
      intro key child hmem
      apply ih key child hmem (happ.of_mem hmem)
      intro place other hplace
      apply h (key :: place)
      rw [at?_cons, happ.child? hmem]
      exact hplace

theorem mapOwn_id (app : App) : (app.mapOwn fun _ own => own) = app := by
  induction app using App.induction with
  | node own apps ih =>
    rw [mapOwn_mk]
    congr 1
    apply Dict.mapWithKey_eq_self
    intro key child hmem
    exact ih key child hmem

theorem mapOwn_mapOwn (f g : List String → App.Own → App.Own) (app : App) :
    (app.mapOwn f).mapOwn g = app.mapOwn fun place own => g place (f place own) := by
  induction app using App.induction generalizing f g with
  | node own apps ih =>
    rw [mapOwn_mk, mapOwn_mk, mapOwn_mk, Dict.mapWithKey_mapWithKey]
    congr 1
    apply Dict.mapWithKey_congr
    intro key child hmem
    exact ih key child hmem _ _

theorem Ordered.mapOwn (happ : app.Ordered)
    (h : ∀ place own, own.Ordered → (f place own).Ordered) : (app.mapOwn f).Ordered := by
  induction app using App.induction generalizing f with
  | node own apps ih =>
    rw [mapOwn_mk, ordered_iff]
    refine ⟨h [] own happ.own, happ.apps.mapWithKey _, ?_⟩
    rintro ⟨key, child⟩ hmem
    obtain ⟨child, hchild, rfl⟩ := Dict.mem_entries_mapWithKey.mp hmem
    exact ih key child hchild (happ.of_mem hchild) fun place own hown => h (key :: place) own hown

theorem ext_at? (ha : app.Ordered) (hb : other.Ordered)
    (h : ∀ place, (app.at? place).map App.own = (other.at? place).map App.own) :
    app = other := by
  induction app using App.induction generalizing other with
  | node own apps ih =>
    obtain ⟨own', apps'⟩ := other
    have hown : own = own' := by simpa using h []
    have hchild (key : String) (place : List String) := h (key :: place)
    simp only [at?_cons] at hchild
    have happs : apps = apps' := by
      apply Dict.ext_get? ha.apps hb.apps
      intro key
      have hkey := hchild key
      change ∀ place, ((apps.get? key).bind _).map _ = ((apps'.get? key).bind _).map _ at hkey
      cases hget : apps.get? key with
      | none =>
        cases hget' : apps'.get? key with
        | none => rfl
        | some child' =>
          rw [hget, hget'] at hkey
          simpa using hkey []
      | some child =>
        cases hget' : apps'.get? key with
        | none =>
          rw [hget, hget'] at hkey
          simpa using hkey []
        | some child' =>
          rw [hget, hget'] at hkey
          have hmem := Dict.mem_of_get? hget
          have hmem' := Dict.mem_of_get? hget'
          rw [ih key child hmem (ha.of_mem hmem) (hb.of_mem hmem') hkey]
    rw [hown, happs]

end AppTopology.App
