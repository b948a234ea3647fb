import AppTopology.Proofs.Detached

namespace AppTopology

def Metadata.anonymous (info : Metadata) : Metadata := { info with uuid := "" }

theorem Metadata.anonymous_eq {info info' : Metadata} {p : Position}
    (hinfo : info.filedAt "" p = info) (hinfo' : info'.filedAt "" p = info')
    (h : info.annotations = info'.annotations) : info.anonymous = info'.anonymous := by
  rw [← hinfo, ← hinfo']
  simp only [filedAt, anonymous, h]

theorem Metadata.eq_of_anonymous_eq {info info' : Metadata} (h : info.anonymous = info'.anonymous)
    (huuid : info.uuid = info'.uuid) : info = info' := by
  obtain ⟨name, parent, reference, annotations, uuid⟩ := info
  obtain ⟨name', parent', reference', annotations', uuid'⟩ := info'
  simp_all [anonymous]

namespace App

variable {old app other root : App} {f : Position → Metadata → Metadata} {p : Position}

def anonymous (app : App) : App := app.mapInfo fun _ => Metadata.anonymous

def knownTo (old app : App) : App :=
  app.mapInfo fun p info => if (old.info? p).isSome then info else info.anonymous

theorem Own.mapInfo_connected (f : Item → Metadata → Metadata) (links : Links)
    (place : List String) (own : App.Own) :
    (own.connected links place).mapInfo f = (own.mapInfo f).connected links place := by
  simp only [mapInfo, connected, mapShelf, Dict.mapWithKey_mapWithKey]
  rfl

theorem connect_mapInfo (f : Position → Metadata → Metadata) (app : App) :
    (app.mapInfo f).connect = app.connect.mapInfo f := by
  rw [connect_eq, mapInfo, Links.ofTree_mapOwn fun _ => Own.outline_mapInfo _, connect_eq, mapInfo,
    mapOwn_mapOwn, mapOwn_mapOwn]
  simp only [Own.mapInfo_connected]

theorem annotations_eq (h : app.declared = other.declared) {info info' : Metadata}
    (hinfo : app.info? p = some info) (hinfo' : other.info? p = some info') :
    info.annotations = info'.annotations := by
  have hdeclared := congrArg (fun app => (app.entity? p).map Entity.info) h
  simp only [entity?_declared, Option.map_map] at hdeclared
  rw [info?_eq] at hinfo hinfo'
  obtain ⟨entity, hentity, rfl⟩ := Option.map_eq_some_iff.mp hinfo
  obtain ⟨entity', hentity', rfl⟩ := Option.map_eq_some_iff.mp hinfo'
  rw [hentity, hentity', Option.map_some, Option.map_some, Option.some.injEq] at hdeclared
  simp only [Function.comp_apply, Entity.info_declared] at hdeclared
  exact (Metadata.mk.inj hdeclared).2.2.2.1

theorem mapInfo_eq_of_connected (happ : app.Ordered) (hother : other.Ordered)
    (hconnect : app.connect = app) (hconnect' : other.connect = other)
    (h : app.declared = other.declared)
    (hf : ∀ p info, (f p info).annotations = info.annotations)
    (hinfo : ∀ p info info', app.info? p = some info → other.info? p = some info' →
      f p info = f p info') : app.mapInfo f = other.mapInfo f := by
  have hdetached : (app.mapInfo f).detached = (other.mapInfo f).detached := by
    apply detached_eq (happ.mapInfo hf) (hother.mapInfo hf)
    intro p
    have hdeclared := congrArg (·.entity? p) h
    simp only [entity?_declared] at hdeclared
    rw [entity?_mapInfo, entity?_mapInfo]
    cases happ : app.entity? p with
    | none =>
      rw [happ, Option.map_none, eq_comm, Option.map_eq_none_iff] at hdeclared
      rw [hdeclared]
    | some entity =>
      obtain ⟨entity', hother, hentity⟩ := Option.map_eq_some_iff.mp
        (hdeclared.symm.trans (congrArg (Option.map Entity.declared) happ))
      have hsame : f p entity.info = f p entity'.info :=
        hinfo p _ _ (by rw [info?_eq, happ]; rfl) (by rw [info?_eq, hother]; rfl)
      rw [hother]
      simp only [Option.map_some, Entity.detached_mapInfo, hentity, hsame]
  rw [← hconnect, ← hconnect', ← connect_mapInfo f, ← connect_mapInfo f, ← connect_detached,
    hdetached, connect_detached]

theorem anonymous_eq_of_declared (happ : app.Checked) (hother : other.Checked)
    (hconnect : app.connect = app) (hconnect' : other.connect = other)
    (h : app.declared = other.declared) : app.anonymous = other.anonymous := by
  refine mapInfo_eq_of_connected happ.ordered hother.ordered hconnect hconnect' h
    (fun _ _ => rfl) ?_
  intro p info info' hinfo hinfo'
  exact Metadata.anonymous_eq (happ.info_eq hinfo) (hother.info_eq hinfo')
    (annotations_eq h hinfo hinfo')

theorem knownTo_eq_of_declared (happ : app.Checked) (hother : other.Checked)
    (hconnect : app.connect = app) (hconnect' : other.connect = other)
    (h : app.declared = other.declared)
    (huuid : ∀ p, (old.info? p).isSome → app.uuid? p = other.uuid? p) :
    old.knownTo app = old.knownTo other := by
  refine mapInfo_eq_of_connected happ.ordered hother.ordered hconnect hconnect' h ?_ ?_
  · intro p info
    split <;> rfl
  · intro p info info' hinfo hinfo'
    have hanonymous := Metadata.anonymous_eq (happ.info_eq hinfo) (hother.info_eq hinfo')
      (annotations_eq h hinfo hinfo')
    split
    · next hold =>
      have hsame := huuid p hold
      rw [uuid?, uuid?, hinfo, hinfo'] at hsame
      exact Metadata.eq_of_anonymous_eq hanonymous (Option.some.inj hsame)
    · exact hanonymous

end App

end AppTopology
