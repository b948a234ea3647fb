import AppTopology.Entity.Build
import AppTopology.Proofs.Committed

namespace AppTopology

def Metadata.unfiled (info : Metadata) : Metadata :=
  { info with name := "", parent := "", reference := "" }

namespace App

variable {α : Type} [Leaf α] [LawfulLeaf α] {root next app child : App} {own : App.Own}
variable {apps : Dict App} {scope key : String} {error : TopologyError}

def unfiled (app : App) : App := app.mapInfo fun _ => Metadata.unfiled

/-- The keys of the apps around are joined one by one, so that empty keys leave no trace in front.
-/
structure FiledAs (root next : App) : Prop where
  kept : next.unfiled = root.unfiled
  name : ∀ p info, next.info? p = some info → info.name = p.name
  parent : ∀ p info, next.info? p = some info → info.parent = Scope.under "" p.owner
  dotted : ∀ p info, next.info? p = some info → "" ∉ p.owner → info.parent = Scope.join p.owner
  reference : ∀ p info, next.info? p = some info → info.reference = Scope.child info.parent p.name

theorem unfiled_filed (root : App) : root.filed.unfiled = root.unfiled := by
  rw [unfiled, filed, mapInfo_mapInfo]
  rfl

theorem exists_filedAt {p : Position} {info : Metadata} (h : root.filed.info? p = some info) :
    ∃ before, root.info? p = some before ∧ before.filedAt "" p = info := by
  rwa [filed, info?_mapInfo, Option.map_eq_some_iff] at h

theorem filedAs_filed (root : App) : root.FiledAs root.filed where
  kept := unfiled_filed root
  name p info h := by
    obtain ⟨before, -, rfl⟩ := exists_filedAt h
    rfl
  parent p info h := by
    obtain ⟨before, -, rfl⟩ := exists_filedAt h
    rfl
  dotted p info h howner := by
    obtain ⟨before, -, rfl⟩ := exists_filedAt h
    exact Scope.under_empty_of_notMem howner
  reference p info h := by
    obtain ⟨before, -, rfl⟩ := exists_filedAt h
    rfl

theorem normalize_filed (hroot : root.Ordered) : root.filed.normalize = .ok root.filed := by
  rw [normalize_eq_ok hroot.filed]
  refine ⟨fun p info h => .inr ((filedAs_filed root).name p info h), (filed_filed root).symm⟩

theorem exists_normalize_iff (hroot : root.Ordered) : (∃ next, root.normalize = .ok next) ↔
    root.info.name = "" ∧ ∀ p info, p ≠ .root → root.info? p = some info →
      info.name = "" ∨ info.name = p.name := by
  simp only [normalize_eq_ok hroot, exists_and_left, exists_eq, and_true]
  constructor
  · intro h
    -- The root stands under no key, so that a name that fits it is empty in any case.
    have hname : root.info.name = "" ∨ root.info.name = "" := h .root root.info rfl
    exact ⟨hname.elim id id, fun p info _ => h p info⟩
  · rintro ⟨hname, hbelow⟩ p info hinfo
    by_cases hp : p = .root
    · subst hp
      injection hinfo with hinfo
      exact .inl (hinfo ▸ hname)
    · exact hbelow p info hp hinfo

def Misfiles (app : App) (scope : String) (error : TopologyError) : Prop :=
  ∃ p info, p ≠ .root ∧ app.info? p = some info ∧ ¬ info.FitsAt p ∧
    error = .misfiled info.name p.name (Scope.under scope p.owner)

theorem failsWith_adopt (info : Metadata) (key scope : String) :
    Check.FailsWith (fun error => ¬ info.FitsAt (Position.root.inside key) ∧
      error = .misfiled info.name key scope) (info.adopt key scope) :=
  .ite (fun _ => .ok _) fun h => .error ⟨h, rfl⟩

theorem Misfiles.inside (hchild : app.child? key = some child)
    (h : child.Misfiles (Scope.child scope key) error) : app.Misfiles scope error := by
  obtain ⟨p, info, hp, hinfo, hfits, rfl⟩ := h
  refine ⟨p.inside key, info, Position.inside_ne_root key p, ?_, ?_, ?_⟩
  · rwa [info?_inside_of_child? hchild]
  · rwa [Metadata.fitsAt_inside hp]
  · rw [Position.name_inside hp, Position.owner_inside hp, Scope.under_cons]

theorem failsWith_adoptShelf (hown : own.Ordered) :
    Check.FailsWith (Misfiles ⟨own, apps⟩ scope)
      (adoptShelf scope (Leaf.shelf own : Dict α)) := by
  refine .bind (.mapM ?_) fun _ => .ok _
  rintro ⟨name, leaf⟩ hmem
  refine .bind ((failsWith_adopt _ _ _).imp ?_) fun _ => .ok _
  rintro _ ⟨hfits, rfl⟩
  have hleaf : own.leaf? α name = some leaf := (LawfulLeaf.ordered_shelf hown).1.get?_of_mem hmem
  refine ⟨⟨[], .ofKind (Leaf.kind α) name⟩, Leaf.info leaf, Position.leaf_ne_root [] name, ?_, ?_,
    ?_⟩
  · rw [info?_own, LawfulLeaf.info?_ofKind, hleaf, Option.map_some]
  · rwa [Metadata.FitsAt, Position.name_leaf]
  · rw [Position.name_leaf, Position.owner_leaf, Scope.under_nil]

theorem failsWith_adoptBelow (happ : app.Ordered) :
    Check.FailsWith (app.Misfiles scope) (app.adoptBelow scope) := by
  induction app using App.induction generalizing scope with
  | node own apps ih =>
    obtain ⟨children⟩ := apps
    have hleaves : Check.FailsWith (Misfiles ⟨own, ⟨children⟩⟩ scope) (adoptLeaves scope own) :=
      .bind (failsWith_adoptShelf happ.own) fun _ => .bind (failsWith_adoptShelf happ.own) fun _ =>
        .bind (failsWith_adoptShelf happ.own) fun _ => .ok _
    rw [adoptBelow, adoptChildren_eq]
    refine .bind (.mapM ?_) fun _ => .bind hleaves fun _ => .ok _
    rintro ⟨key, child⟩ hmem
    have hchild := happ.child? hmem
    refine .bind ((failsWith_adopt _ _ _).imp ?_) fun _ => .bind ?_ fun _ => .ok _
    · rintro _ ⟨hfits, rfl⟩
      refine ⟨Position.root.inside key, child.info, Position.inside_ne_root _ _, ?_, hfits, rfl⟩
      exact info?_inside_of_child? hchild _
    · exact (ih key child hmem (happ.of_mem hmem)).imp fun _ => Misfiles.inside hchild

theorem failsWith_normalize (hroot : root.Ordered) :
    Check.FailsWith (fun error => root.info.name ≠ "" ∧ error = .namedRoot root.info.name ∨
      root.Misfiles "" error) root.normalize := by
  refine .ite (fun hname => .error (.inl ⟨hname, rfl⟩)) fun _ => ?_
  rw [adoptBelow_withInfo]
  exact fun error herror => .inr (failsWith_adoptBelow hroot error (Check.eq_error_of_map herror))

/-- Normalization goes through exactly if whatever is named is named like its key, and files every
entity where it stands. -/
theorem normalize_files (hroot : root.Ordered) :
    ((∃ next, root.normalize = .ok next) ↔ root.info.name = "" ∧
      ∀ p info, p ≠ .root → root.info? p = some info → info.name = "" ∨ info.name = p.name) ∧
    (∀ next, root.normalize = .ok next → root.FiledAs next ∧ next.normalize = .ok next) ∧
    ∀ error, root.normalize = .error error →
      root.info.name ≠ "" ∧ error = .namedRoot root.info.name ∨ root.Misfiles "" error := by
  refine ⟨exists_normalize_iff hroot, fun next h => ?_, failsWith_normalize hroot⟩
  obtain ⟨-, rfl⟩ := (normalize_eq_ok hroot).mp h
  exact ⟨filedAs_filed root, normalize_filed hroot⟩

theorem normalize_files_billing :
    let invoices : Channel := { info := { reference := "stale" }, typeName := "Invoice" }
    let billing : App := (({} : App).putLeaf "invoices" invoices).withApp (.named "printer")
    let root : App := ({} : App).putChild "billing" billing
    let misfiled : App := ({} : App).putChild "billing" (billing.putChild "tray" (.named "printer"))
    root.Ordered ∧ misfiled.Ordered ∧
      (∃ next, root.normalize = .ok next ∧ root.FiledAs next ∧ next.normalize = .ok next ∧
        next.info? ⟨["billing"], .channel "invoices"⟩ =
          some { name := "invoices", parent := "billing", reference := "billing.invoices" }) ∧
      ¬ (∃ next, misfiled.normalize = .ok next) ∧
      misfiled.Misfiles "" (.misfiled "printer" "tray" "billing") := by
  intro invoices billing root misfiled
  have hroot : root.Ordered := by decide +kernel
  have hmisfiled : misfiled.Ordered := by decide +kernel
  have hinfo : root.normalize.toOption.bind (·.info? ⟨["billing"], .channel "invoices"⟩) =
      some { name := "invoices", parent := "billing", reference := "billing.invoices" } := by
    decide +kernel
  have herror : misfiled.normalize = .error (.misfiled "printer" "tray" "billing") := by
    decide +kernel
  obtain ⟨-, hfiles, -⟩ := normalize_files hroot
  obtain ⟨hnext, -, hrefusal⟩ := normalize_files hmisfiled
  refine ⟨hroot, hmisfiled, ?_, ?_, ?_⟩
  · cases hnormal : root.normalize with
    | error error =>
      rw [hnormal] at hinfo
      exact nomatch hinfo
    | ok next =>
      rw [hnormal] at hinfo
      obtain ⟨hfiled, hagain⟩ := hfiles next hnormal
      exact ⟨next, rfl, hfiled, hagain, hinfo⟩
  · rw [hnext]
    rintro ⟨-, hnames⟩
    exact absurd (hnames ⟨["billing", "tray"], .app⟩ { name := "printer" } nofun rfl) (by decide)
  · rcases hrefusal _ herror with ⟨hname, -⟩ | hmisfiles
    · exact absurd rfl hname
    · exact hmisfiles

end App

end AppTopology
