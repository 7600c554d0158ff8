/-
Documents that take several attempts.

A store may break off a delivery anywhere. What it took until then it has carried out,
while the service counts on the same document as before, so the next attempt offers the
same operations from the start (`Deployment.commit_ends`). In the end one attempt is taken
as a whole, and then the store holds what it would hold if nothing had been broken off
before (`Deployment.retries_converge`).
-/
import PacketClassifier.Proofs.Baseline.Failure
import PacketClassifier.Proofs.Provision.Retry
import PacketClassifier.Proofs.Service.Group

namespace PacketClassifier

variable {σ : Type} {holds : σ → Inventory}

namespace Store

variable {store : Store (StateM σ)}

/-- Whether a store carries out what it takes and nothing else, as far as the groups go
that it holds. -/
def Faithful (holds : σ → Inventory) (store : Store (StateM σ)) : Prop := ∀ o world,
  holds (store o world).2 = match (store o world).1 with
    | .ok () => (holds world).obey o
    | .error _ => holds world

theorem Answers.obeyed (h : store.Faithful holds) {world after : σ} {j : Journal}
    (ha : store.Answers world j after) : holds after = (holds world).obeyAll j.accepted := by
  induction ha with
  | nothing _ => rfl
  | @next o answer j world between after ho _ ih =>
    have hone := h o world
    rw [ho] at hone
    rw [ih, hone]
    cases answer with
    | ok _ => rfl
    | error fault => rfl

/-- What a store is offered, and what of it the store carries out, is the first part of a
list. It is the whole list if nothing was refused. -/
theorem deliver_faithful (h : store.Faithful holds) (os sent : List Operation) (world : σ) :
    ∃ result world' offered taken, (deliver store os world).1 = result
      ∧ deliver store.watched os (world, sent) = (result, world', sent ++ offered)
      ∧ offered <+: os ∧ taken <+: os ∧ holds world' = (holds world).obeyAll taken
      ∧ (result = .ok () → offered = os ∧ taken = os) := by
  obtain ⟨j, result, after, hoffers, hanswers⟩ := exists_offers store os world
  exact ⟨result, after, j.offered, j.accepted,
    congrArg Prod.fst (deliver_of_offers hoffers hanswers),
    deliver_of_offers hoffers (hanswers.watched sent),
    hoffers.offered_prefix, hoffers.accepted_prefix, hanswers.obeyed h,
    fun hr => ⟨hoffers.offered_eq hr, hoffers.ok_iff.mp hr⟩⟩

end Store

/-- Keeping a document does not fail in the way in which stores do. -/
theorem Baseline.save_ne_store_error (files : Files) (path : Path) (doc : Json)
    (fault : StoreFault) :
    (save files path doc).1 ≠ .error (.store fault) := by
  intro h
  have hend := save_ends files path doc
  generalize save files path doc = r at h hend
  cases hend <;> cases h

theorem GroupService.previous_remember (s : GroupService) (files : Files) :
    (s.remember files).previous files = s.previous files := rfl

namespace Deployment

variable {store : Store (StateM σ)} {d e : Deployment σ} {doc : Json}

/-- The operations that an attempt has to bring to the store. -/
def pending (d : Deployment σ) (doc : Json) : List Operation :=
  (Plan.ofDocuments (d.service.previous d.files) doc).operations

/-- A store that refuses an operation leaves the service counting on what it counted on
before. -/
theorem commit_broken_off {fault : StoreFault} {world : σ} {sent : List Operation}
    (h : deliver store.watched (d.pending doc) (d.world, d.sent)
      = (.error fault, world, sent)) :
    d.commit store doc = (.error (.store fault),
      ⟨d.service.remember d.files, d.files, world, sent⟩) := by
  rw [commit, GroupService.commit_run, Plan.deliver_eq (p := d.service.plan d.files doc) h]
  rfl

/-- A store that takes every operation is left as it is, whether the document can be kept
then or not. -/
theorem commit_delivered {world : σ} {sent : List Operation}
    (h : deliver store.watched (d.pending doc) (d.world, d.sent) = (.ok (), world, sent)) :
    (d.commit store doc).2.world = world ∧ (d.commit store doc).2.sent = sent
      ∧ ∀ fault, (d.commit store doc).1 ≠ .error (.store fault) := by
  have hsave := Baseline.save_ne_store_error d.files d.service.path doc
  rw [commit, GroupService.commit_run, Plan.deliver_eq (p := d.service.plan d.files doc) h]
  simp only [Except.map]
  cases hs : Baseline.save d.files d.service.path doc with
  | mk result saved =>
    rw [hs] at hsave
    cases result with
    | error e =>
      refine ⟨rfl, rfl, ?_⟩
      intro fault hr
      exact hsave fault (congrArg Except.error (Except.error.inj hr))
    | ok _ =>
      refine ⟨rfl, rfl, ?_⟩
      intro fault hr
      cases hr

/-- How an attempt ends: either the store breaks it off and the service counts on what it
counted on before, or the store has carried out everything. -/
theorem commit_ends (h : store.Faithful holds) (d : Deployment σ) (doc : Json) :
    ∃ offered taken, (d.commit store doc).2.sent = d.sent ++ offered
      ∧ offered <+: d.pending doc ∧ taken <+: d.pending doc
      ∧ holds (d.commit store doc).2.world = (holds d.world).obeyAll taken
      ∧ ((∃ fault, (deliver store (d.pending doc) d.world).1 = .error fault
          ∧ (d.commit store doc).1 = .error (.store fault)
          ∧ (d.commit store doc).2.service = d.service.remember d.files
          ∧ (d.commit store doc).2.files = d.files)
        ∨ (deliver store (d.pending doc) d.world).1 = .ok ()
          ∧ (∀ fault, (d.commit store doc).1 ≠ .error (.store fault))
          ∧ offered = d.pending doc ∧ taken = d.pending doc) := by
  obtain ⟨result, world, offered, taken, hresult, hdeliver, hoffered, htaken, hheld, hall⟩ :=
    Store.deliver_faithful h (d.pending doc) d.sent d.world
  refine ⟨offered, taken, ?_⟩
  cases result with
  | error fault =>
    rw [commit_broken_off hdeliver]
    exact ⟨rfl, hoffered, htaken, hheld, .inl ⟨fault, hresult, rfl, rfl, rfl⟩⟩
  | ok _ =>
    obtain ⟨hworld, hsent, hnone⟩ := commit_delivered hdeliver
    rw [hworld]
    exact ⟨hsent, hoffered, htaken, hheld, .inr ⟨hresult, hnone, hall rfl⟩⟩

/-- Where attempts to put a document into effect lead that are all broken off. Each may
meet with another store, and the service may be replaced by a fresh one in between if that
counts on the same document. -/
inductive BrokenOff (holds : σ → Inventory) (doc : Json) (d : Deployment σ) :
    Deployment σ → Prop where
  | start : BrokenOff holds doc d d
  | attempt {e : Deployment σ} {store : Store (StateM σ)} {fault : StoreFault}
      (h : BrokenOff holds doc d e) (hf : store.Faithful holds)
      (hc : (e.commit store doc).1 = .error (.store fault)) :
      BrokenOff holds doc d (e.commit store doc).2
  | restart {e : Deployment σ} (h : BrokenOff holds doc d e)
      (hl : Baseline.load e.files e.service.path = e.service.previous e.files) :
      BrokenOff holds doc d e.restart

/-- However often a document was broken off, the service counts on what it counted on at
first, and the store has carried out some of the operations, each any number of times. -/
theorem BrokenOff.half_way (h : BrokenOff holds doc d e) :
    e.service.previous e.files = d.service.previous d.files
      ∧ ∃ taken, (∀ o ∈ taken, o ∈ d.pending doc)
          ∧ holds e.world = (holds d.world).obeyAll taken := by
  induction h with
  | start => exact ⟨rfl, [], fun _ ho => absurd ho List.not_mem_nil, rfl⟩
  | restart _ hl ih =>
    obtain ⟨hprevious, hheld⟩ := ih
    exact ⟨hl.trans hprevious, hheld⟩
  | @attempt e store fault _ hf hc ih =>
    obtain ⟨hprevious, before, hbefore, hheld⟩ := ih
    have hpending : e.pending doc = d.pending doc := by
      rw [pending, pending, hprevious]
    obtain ⟨offered, taken, _, _, htaken, hafter, hend⟩ := commit_ends hf e doc
    constructor
    · rcases hend with ⟨_, _, _, hservice, hfiles⟩ | ⟨_, hnone, _⟩
      · rw [hservice, hfiles, GroupService.previous_remember, hprevious]
      · exact absurd hc (hnone fault)
    · refine ⟨before ++ taken, ?_, ?_⟩
      · intro o ho
        rcases List.mem_append.mp ho with ho | ho
        · exact hbefore o ho
        · exact hpending ▸ htaken.subset ho
      · rw [hafter, hheld, Inventory.obeyAll_append]

/-- **Retries converge.** The store holds the groups of the document that the service
counts on, and attempts to put another one into effect are broken off any number of times,
wherever the store likes. Then the next attempt offers the store a first part of the same
operations. It is broken off as well exactly if the store refuses one of them. If it takes
them all, all of them were offered, and the store holds the groups of the new document. -/
theorem retries_converge (hb : (d.service.previous d.files).Keyed) (hd : doc.Keyed)
    (hheld : holds d.world = Inventory.ofDocument (d.service.previous d.files))
    (h : BrokenOff holds doc d e) (hf : store.Faithful holds) :
    ∃ offered, (e.commit store doc).2.sent = e.sent ++ offered
      ∧ offered <+: (Plan.ofDocuments (d.service.previous d.files) doc).operations
      ∧ ((deliver store (Plan.ofDocuments (d.service.previous d.files) doc).operations
          e.world).1 = .ok ()
        ↔ ∀ fault, (e.commit store doc).1 ≠ .error (.store fault))
      ∧ ((∀ fault, (e.commit store doc).1 ≠ .error (.store fault)) →
        offered = (Plan.ofDocuments (d.service.previous d.files) doc).operations
          ∧ holds (e.commit store doc).2.world = Inventory.ofDocument doc) := by
  obtain ⟨hprevious, before, hbefore, hworld⟩ := h.half_way
  have hpending : e.pending doc = d.pending doc := by
    rw [pending, pending, hprevious]
  obtain ⟨offered, taken, hsent, hoffered, _, hafter, hend⟩ := commit_ends hf e doc
  rw [hpending] at hoffered hend
  refine ⟨offered, hsent, hoffered, ?_, fun hall => ?_⟩
  · show (deliver store (d.pending doc) e.world).1 = .ok () ↔ _
    rcases hend with ⟨fault, hrefused, herror, _⟩ | ⟨htaken, hnone, _⟩
    · exact iff_of_false (fun hok => nomatch hrefused.symm.trans hok) fun hall =>
        hall fault herror
    · exact iff_of_true htaken hnone
  · rcases hend with ⟨fault, _, herror, _⟩ | ⟨_, _, hwhole, htaken⟩
    · exact absurd herror (hall fault)
    · refine ⟨hwhole, ?_⟩
      have hreplay := Plan.replay_between (DscpGroup.proper_inDocument hb)
        (DscpGroup.proper_inDocument hd)
      calc holds (e.commit store doc).2.world
          = ((holds d.world).obeyAll before).obeyAll (d.pending doc) := by
              rw [hafter, hworld, htaken]
        _ = (holds d.world).obeyAll (d.pending doc) := Inventory.obeyAll_again _ hbefore
        _ = Inventory.ofDocument doc := by
          rw [hheld]
          exact Inventory.obeyAll_of_replay hreplay

/-- The store that takes so many operations holds what they come to. -/
theorem limited_faithful (held : Inventory) (limit : Nat) (fault : Operation → StoreFault) :
    (Store.limited limit fault).Faithful held.obeyAll := by
  intro o taken
  rw [Store.limited]
  split
  · exact Inventory.obeyAll_append held taken [o]
  · rfl

/-- A service that counts on the earlier document, with a store that took some operations
and was offered others. -/
def interrupted (taken sent : List Operation) : Deployment (List Operation) :=
  ⟨⟨firstPath, some Plan.earlier⟩, .empty, taken, sent⟩

/-- Removes the group that changes. -/
def removeB : Operation :=
  ⟨"resources group dscp-group b", "npf-cfg delete dscp-group:b", "ALL", .delete⟩

/-- Removes the group that disappears. -/
def removeC : Operation :=
  ⟨"resources group dscp-group c", "npf-cfg delete dscp-group:c", "ALL", .delete⟩

/-- Adds the group that changed. -/
def createB : Operation :=
  ⟨"resources group dscp-group b dscp", "npf-cfg add dscp-group:b 0 1;8", "ALL", .set⟩

/-- Adds the group that is new. -/
def createD : Operation :=
  ⟨"resources group dscp-group d dscp", "npf-cfg add dscp-group:d 0 ", "ALL", .set⟩

/-- Puts all of this into effect. -/
def settle : Operation := ⟨"qos commit", "qos commit", "ALL", .set⟩

theorem pending_interrupted (taken sent : List Operation) :
    (interrupted taken sent).pending Plan.later
      = [removeB, removeC, createB, createD, settle] :=
  Plan.ofDocuments_earlier_later

/-- How the store refuses. -/
def refuse (o : Operation) : StoreFault := .rejected o.command "no"

theorem retries_converge_interrupted :
    Plan.earlier.Keyed ∧ Plan.later.Keyed
      ∧ Inventory.ofDocument Plan.earlier = .ofList [("a", "8;46"), ("b", "1"), ("c", "")]
      ∧ BrokenOff (Inventory.ofDocument Plan.earlier).obeyAll Plan.later (interrupted [] [])
        (interrupted [removeB, removeC, removeB]
          [removeB, removeC, createB, removeB, removeC])
      ∧ ∃ after, ((interrupted [removeB, removeC, removeB]
            [removeB, removeC, createB, removeB, removeC]).commit
              (.limited 8 refuse) Plan.later).2
          = after
        ∧ after.sent = [removeB, removeC, createB, removeB, removeC]
          ++ [removeB, removeC, createB, createD, settle]
        ∧ (Inventory.ofDocument Plan.earlier).obeyAll after.world
            = Inventory.ofDocument Plan.later
        ∧ Inventory.ofDocument Plan.later
          = .ofList [("a", "8;46"), ("b", "1;8"), ("d", "")] := by
  -- The first attempt is broken off behind both removals, the second one between them.
  have hfirst : (interrupted [] []).commit (.limited 2 refuse) Plan.later
      = (.error (.store (refuse createB)),
        interrupted [removeB, removeC] [removeB, removeC, createB]) :=
    commit_broken_off (by rw [pending_interrupted]; rfl)
  have hsecond : (interrupted [removeB, removeC] [removeB, removeC, createB]).commit
      (.limited 3 refuse) Plan.later
      = (.error (.store (refuse removeC)),
        interrupted [removeB, removeC, removeB]
          [removeB, removeC, createB, removeB, removeC]) :=
    commit_broken_off (by rw [pending_interrupted]; rfl)
  have hone :=
    BrokenOff.attempt .start (limited_faithful (Inventory.ofDocument Plan.earlier) 2 refuse)
      (congrArg Prod.fst hfirst)
  rw [hfirst] at hone
  have htwo := hone.attempt (limited_faithful _ 3 refuse) (congrArg Prod.fst hsecond)
  rw [hsecond] at htwo
  obtain ⟨offered, hsent, _, hwhole, hlast⟩ := retries_converge (d := interrupted [] [])
    Plan.keyed_earlier Plan.keyed_later rfl htwo (limited_faithful _ 8 refuse)
  have hpending :
      (Plan.ofDocuments ((interrupted [] []).service.previous (interrupted [] []).files)
        Plan.later).operations = [removeB, removeC, createB, createD, settle] :=
    pending_interrupted [] []
  rw [hpending] at hwhole hlast
  -- The third attempt meets with a store that takes everything.
  obtain ⟨hoffered, hheld⟩ := hlast (hwhole.mp rfl)
  exact ⟨Plan.keyed_earlier, Plan.keyed_later, Plan.ofDocument_earlier, htwo, _, rfl,
    hsent.trans (congrArg _ hoffered), hheld, Plan.ofDocument_later⟩

end Deployment

end PacketClassifier
