import ServerBoundary.Proofs.Client.Obtaining
import ServerBoundary.Proofs.Client.Overlay
import ServerBoundary.Proofs.Client.Run

/-!
# The live elements over a run

The live elements are a promise that grows: a root that is mounted or reloaded replaces it, and a
refetch or a call that ends is merged over it. `Session.history` lists these layers in the order in
which they were laid, and `LiveLayer.resolved?` says what a list of them comes to, without any
promise: the lowest layer with the others merged over it from left to right.

> `live_elements_are_layers`: after every run, whatever arrives and in whatever order, the live
> elements come to what the layers since the last replacement come to.

The proof is by induction on the run. Its one step is `join_resolved?`: joining what some layers
come to with one more layer on the right is what all of them come to, because an error can only be
on the left.
-/

namespace ServerBoundary.Client

variable {ρ : Type}

/-! ## Layers -/

/-- A layer of the live elements. -/
inductive LiveLayer where
  /-- A promise that the live elements became. -/
  | installed (p : Promise)
  /-- The elements of a refetch, or none if it failed. -/
  | refetched (p : Promise)
  /-- The patch of a call. -/
  | patched (call : Nat) (patch : Elements)

namespace LiveLayer

/-- Whether a layer replaces those before it. -/
def isInstalled : LiveLayer → Bool
  | installed _ => true
  | _ => false

/-- The call whose patch a layer is. -/
def call? : LiveLayer → Option Nat
  | patched call _ => some call
  | _ => none

/-- What a layer came to. Only one that was installed can be an error. -/
def outcome? (arrived : Nat → Option Delivery) : LiveLayer → Option Outcome
  | installed p => p.outcome? arrived
  | refetched p => (p.outcome? arrived).map Promise.forgiving
  | patched _ patch => some (.ok patch)

/-- The elements of a layer, once they are known. -/
def elements? (arrived : Nat → Option Delivery) (l : LiveLayer) : Option Elements :=
  match l.outcome? arrived with
  | some (.ok elements) => some elements
  | _ => none

/-- The layers from the last one on that replaced those before it; all of them if none did. -/
def visible : List LiveLayer → List LiveLayer
  | [] => []
  | l :: ls => if ls.any isInstalled then visible ls else l :: ls

/-- What layers come to. If the lowest is an error, that; otherwise the others merged over it from
left to right, once all are known. -/
def resolved? (arrived : Nat → Option Delivery) : List LiveLayer → Option (Option Outcome)
  | [] => none
  | base :: rest => some <|
    match base.outcome? arrived with
    | none => none
    | some (.error e) => some (.error e)
    | some (.ok elements) =>
      (rest.mapM (elements? arrived)).map fun patches =>
        .ok (patches.foldl Elements.merge elements)

theorem visible_concat (ls : List LiveLayer) (l : LiveLayer) :
    visible (ls ++ [l]) = if l.isInstalled then [l] else visible ls ++ [l] := by
  induction ls with
  | nil => cases h : l.isInstalled <;> simp [visible]
  | cons x ls ih =>
    rw [List.cons_append, visible, visible, List.any_append, ih]
    cases h : l.isInstalled <;> cases hls : ls.any isInstalled <;> simp [h]

/-- A layer that replaces nothing is no error. -/
theorem outcome?_of_not_isInstalled {l : LiveLayer} (h : l.isInstalled = false)
    (arrived : Nat → Option Delivery) :
    l.outcome? arrived = (l.elements? arrived).map Except.ok := by
  cases l with
  | installed p => exact absurd h (by simp [isInstalled])
  | refetched p =>
    rw [elements?, outcome?]
    cases p.outcome? arrived with
    | none => rfl
    | some o => cases o <;> rfl
  | patched call patch => rfl

/-- **One more layer.** What some layers come to, joined with one more, is what all of them come
to. -/
theorem join_resolved? {arrived : Nat → Option Delivery} {ls : List LiveLayer} {l : LiveLayer}
    {before : Option Outcome} (hls : resolved? arrived ls = some before)
    (hl : l.isInstalled = false) :
    some (Promise.join before (l.outcome? arrived)) = resolved? arrived (ls ++ [l]) := by
  cases ls with
  | nil => exact absurd hls (by simp [resolved?])
  | cons base rest =>
    rw [List.cons_append, resolved?]
    rw [resolved?, Option.some.injEq] at hls
    rw [outcome?_of_not_isInstalled hl, ← hls]
    cases base.outcome? arrived with
    | none => cases l.elements? arrived <;> rfl
    | some outcome =>
      cases outcome with
      | error e => rfl
      | ok elements =>
        -- Both sides are known exactly if all layers are, and then the new one is merged last.
        dsimp only
        rw [List.mapM_append]
        cases rest.mapM (elements? arrived) with
        | none => cases l.elements? arrived <;> rfl
        | some patches =>
          cases hnew : l.elements? arrived with
          | none => simp [hnew, Promise.join]
          | some patch => simp [hnew, Promise.join]

end LiveLayer

namespace Session

/-- The layer that something lays over the live elements, or replaces them with. -/
def layer? (s : Session ρ) : Action ρ → Option LiveLayer
  | .mount route path params => some (.installed (s.store.mount route path params).1)
  | .refetch route path params => some (.refetched (s.store.refetch route path params).1)
  | .reload => s.store.reload.map fun r => .installed r.1
  | .setLive update => some (.installed (update s.store.live))
  | .finish call =>
    match s.ending? call with
    | some (.ok elements) =>
      if elements.splitValue.2.isEmpty then none
      else some (.patched call elements.splitValue.2)
    | _ => none
  | _ => none

/-- The layers of a run, in the order in which they were laid. -/
def history (s : Session ρ) : List (Action ρ) → List LiveLayer
  | [] => []
  | a :: actions => (s.layer? a).toList ++ (s.act a).history actions

end Session

/-! ## What operations do to the live elements -/

namespace Store

theorem obtain_live (s : Store ρ) (route : ρ) (input : FetchInput) :
    (s.obtain route input).2.live = s.live ∧
      (s.obtain route input).2.liveVersion = s.liveVersion :=
  obtain_cases (P := fun r => r.2.live = s.live ∧ r.2.liveVersion = s.liveVersion)
    (fun _ _ => ⟨rfl, rfl⟩) (fun _ _ _ => ⟨rfl, rfl⟩) (fun _ _ _ => ⟨rfl, rfl⟩)

theorem aimReload_live (s : Store ρ) (route : ρ) (path : String) (params : Option Params) :
    (s.aimReload route path params).live = s.live ∧
      (s.aimReload route path params).liveVersion = s.liveVersion := by
  rw [aimReload]
  split <;> exact ⟨rfl, rfl⟩

theorem fetch_live (s : Store ρ) (route : ρ) (path : String) (params : Option Params) :
    (s.fetch route path params).2.live = s.live ∧
      (s.fetch route path params).2.liveVersion = s.liveVersion := by
  have haim := aimReload_live s route path params
  cases h : s.liveEntry? path params with
  | some p =>
    rw [fetch_of_hit h]
    exact haim
  | none =>
    have hobtain := obtain_live (s.aimReload route path params) route ⟨path, params, false⟩
    rw [fetch_of_miss h]
    exact ⟨hobtain.1.trans haim.1, hobtain.2.trans haim.2⟩

theorem mergeLive_live (s : Store ρ) (patch : Promise) :
    (s.mergeLive patch).live = some (match s.live with
      | none => patch
      | some current => .merged s.nextPromise current patch) ∧
    (s.mergeLive patch).liveVersion = s.liveVersion + 1 := by
  rw [mergeLive]
  cases hlive : s.live with
  | none => exact ⟨rfl, rfl⟩
  | some current => exact ⟨rfl, rfl⟩

end Store

/-! ## Runs -/

/-- What the live elements show: after any arrivals, what some layers come to. -/
def Shows (live : Option Promise) (layers : List LiveLayer) : Prop :=
  ∀ arrived, live.map (Promise.outcome? arrived) = LiveLayer.resolved? arrived layers

/-- A patch that is merged over the live elements shows as one more layer. -/
theorem Shows.mergeLive {s : Store ρ} {layers : List LiveLayer} (h : Shows s.live layers)
    {patch : Promise} {l : LiveLayer} (hl : l.isInstalled = false)
    (hpatch : ∀ arrived, patch.outcome? arrived = l.outcome? arrived) :
    Shows (s.mergeLive patch).live (layers ++ [l]) := by
  intro arrived
  have hbefore := h arrived
  rw [(s.mergeLive_live patch).1]
  cases hlive : s.live with
  | none =>
    -- There was no layer, and the patch becomes the lowest one.
    rw [hlive] at hbefore
    cases layers with
    | cons base rest => exact absurd hbefore.symm (by simp [LiveLayer.resolved?])
    | nil =>
      show some (patch.outcome? arrived) = some _
      rw [hpatch, LiveLayer.outcome?_of_not_isInstalled hl]
      cases l.elements? arrived <;> rfl
  | some current =>
    rw [hlive] at hbefore
    show some (Promise.join (current.outcome? arrived) (patch.outcome? arrived)) = _
    rw [hpatch]
    exact LiveLayer.join_resolved? hbefore.symm hl

theorem shows_installed (p : Promise) : Shows (some p) [.installed p] := by
  intro arrived
  show some (p.outcome? arrived) = some (match p.outcome? arrived with
    | none => none
    | some (.error e) => some (.error e)
    | some (.ok elements) => some (.ok elements))
  cases p.outcome? arrived with
  | none => rfl
  | some outcome => cases outcome <;> rfl

/-- What is laid, in one step: the live elements show it with what they showed, and they are
replaced exactly if something is laid. -/
structure Lays (before after : Store ρ) (l : Option LiveLayer) : Prop where
  shows : ∀ layers, Shows before.live (LiveLayer.visible layers) →
    Shows after.live (LiveLayer.visible (layers ++ l.toList))
  version : after.liveVersion = before.liveVersion + l.toList.length

namespace Lays

theorem nothing {before after : Store ρ} (hlive : after.live = before.live)
    (hversion : after.liveVersion = before.liveVersion) : Lays before after none := by
  constructor
  · intro layers h
    rw [hlive, Option.toList_none, List.append_nil]
    exact h
  · exact hversion

theorem replaced {before after : Store ρ} {p : Promise} (hlive : after.live = some p)
    (hversion : after.liveVersion = before.liveVersion + 1) :
    Lays before after (some (.installed p)) := by
  constructor
  · intro layers _
    rw [Option.toList_some, LiveLayer.visible_concat]
    rw [hlive]
    exact shows_installed p
  · exact hversion

theorem merged {before s : Store ρ} {patch : Promise} {l : LiveLayer} (hl : l.isInstalled = false)
    (hpatch : ∀ arrived, patch.outcome? arrived = l.outcome? arrived)
    (hlive : s.live = before.live) (hversion : s.liveVersion = before.liveVersion) :
    Lays before (s.mergeLive patch) (some l) := by
  constructor
  · intro layers h
    rw [Option.toList_some, LiveLayer.visible_concat, hl, if_neg (by simp)]
    refine Shows.mergeLive ?_ hl hpatch
    rw [hlive]
    exact h
  · rw [(s.mergeLive_live patch).2, hversion]
    rfl

end Lays

/-- A call that ends lays its patch, unless that is empty. -/
theorem lays_finishCall (s : Store ρ) (call : Nat) (elements : Elements) :
    Lays s (s.finishCall (.ok elements)).2 (if elements.splitValue.2.isEmpty then none
      else some (.patched call elements.splitValue.2)) := by
  show Lays s (s.applyPatch elements.splitValue.2) _
  rw [Store.applyPatch]
  split
  next => exact .nothing rfl rfl
  next => exact .merged rfl (fun _ => rfl) rfl rfl

/-- **One step.** Everything that happens to a session lays what `layer?` says. -/
theorem Session.lays_act (s : Session ρ) (a : Action ρ) :
    Lays s.store (s.act a).store (s.layer? a) := by
  cases a with
  | fetch route path params =>
    obtain ⟨hlive, hversion⟩ := s.store.fetch_live route path params
    exact .nothing hlive hversion
  | prefetch route path params =>
    show Lays s.store (s.store.prefetch route path params) none
    rw [Store.prefetch]
    split
    next => exact .nothing rfl rfl
    next =>
      obtain ⟨hlive, hversion⟩ := s.store.obtain_live route ⟨path, params, true⟩
      exact .nothing hlive hversion
  | call route id args =>
    show Lays s.store (s.call route id args).2.store none
    rw [Session.call, Store.call]
    cases RscPath.ofFunctionId id with
    | error f => exact .nothing rfl rfl
    | ok path =>
      obtain ⟨hlive, hversion⟩ :=
        s.store.obtain_live route ⟨path, some (.ofArguments args), false⟩
      exact .nothing hlive hversion
  | finish call =>
    rw [Session.act, Session.finish, Session.layer?]
    cases s.ending? call with
    | none => exact .nothing rfl rfl
    | some outcome =>
      cases outcome with
      | error e => exact .nothing rfl rfl
      | ok elements => exact lays_finishCall s.store call elements
  | mount route path params =>
    obtain ⟨_, hversion⟩ := s.store.fetch_live route path params
    exact .replaced rfl (congrArg (· + 1) hversion)
  | refetch route path params =>
    obtain ⟨hlive, hversion⟩ := s.store.clearEntry.fetch_live route path params
    exact .merged rfl (fun _ => rfl) hlive hversion
  | reload =>
    rw [Session.act, Session.layer?, Store.reload]
    cases s.store.reloadTarget with
    | none => exact .nothing rfl rfl
    | some t =>
      obtain ⟨_, hversion⟩ := s.store.clearEntry.fetch_live t.route t.path t.params
      exact .replaced rfl (congrArg (· + 1) hversion)
  | setLive update => exact .replaced rfl rfl
  | deliver response delivery =>
    rw [Session.act, Session.deliver]
    split <;> exact .nothing rfl rfl
  | seed => exact .nothing rfl rfl
  | clearEntry => exact .nothing rfl rfl
  | addTransformer => exact .nothing rfl rfl
  | addListener => exact .nothing rfl rfl
  | unregister => exact .nothing rfl rfl

/-- The layers of a run, step by step. -/
theorem Session.lays_run (s : Session ρ) (actions : List (Action ρ)) (layers : List LiveLayer)
    (h : Shows s.store.live (LiveLayer.visible layers)) :
    Shows (s.run actions).store.live (LiveLayer.visible (layers ++ s.history actions)) ∧
      (s.run actions).store.liveVersion =
        s.store.liveVersion + (s.history actions).length := by
  induction actions generalizing s layers with
  | nil =>
    rw [history, List.append_nil]
    exact ⟨h, rfl⟩
  | cons a actions ih =>
    have hstep := s.lays_act a
    obtain ⟨hshows, hversion⟩ := ih (s.act a) _ (hstep.shows layers h)
    rw [run_cons, history, ← List.append_assoc, List.length_append]
    exact ⟨hshows, by rw [hversion, hstep.version]; omega⟩

/-! ## Calls -/

/-- The calls whose patches were laid, which are different ones and wait no longer. -/
structure Patched (s : Session ρ) (calls : List Nat) : Prop where
  nodup : calls.Nodup
  lt : ∀ n ∈ calls, n < s.nextCall
  lookup_eq_none : ∀ n ∈ calls, Session.lookup n s.waiting = none

/-- What lays no patch and lets the calls wait lays no patch twice. -/
theorem Patched.unchanged {s s' : Session ρ} {calls : List Nat} {l : Option LiveLayer}
    (h : Patched s calls) (hl : l.bind LiveLayer.call? = none) (hnext : s'.nextCall = s.nextCall)
    (hwaiting : s'.waiting = s.waiting) :
    Patched s' (calls ++ (l.bind LiveLayer.call?).toList) := by
  rw [hl, Option.toList_none, List.append_nil]
  exact ⟨h.nodup, fun n hn => hnext ▸ h.lt n hn, fun n hn => hwaiting ▸ h.lookup_eq_none n hn⟩

/-- A new call has a number that no call had before. -/
theorem Patched.call {s : Session ρ} {calls : List Nat} (h : Patched s calls) (route : ρ)
    (id : String) (args : List Params) : Patched (s.call route id args).2 calls := by
  rw [Session.call]
  cases s.store.call route id args with
  | error f => exact ⟨h.nodup, fun n hn => Nat.lt_succ_of_lt (h.lt n hn), h.lookup_eq_none⟩
  | ok r =>
    refine ⟨h.nodup, fun n hn => Nat.lt_succ_of_lt (h.lt n hn), fun n hn => ?_⟩
    have hne := Nat.ne_of_lt (h.lt n hn)
    dsimp only
    rw [Session.lookup_append_of_none (h.lookup_eq_none n hn), Session.lookup,
      if_neg (by simpa using hne.symm), Session.lookup]

/-- A call that ends waited until then, and waits no longer. -/
theorem Patched.finish {s : Session ρ} {calls : List Nat} (h : Patched s calls)
    (hs : s.WaitingNumbered) (call : Nat) :
    Patched (s.finish call) (calls ++ ((s.layer? (.finish call)).bind LiveLayer.call?).toList) := by
  rw [Session.finish, Session.layer?]
  cases hending : s.ending? call with
  | none => simpa using h
  | some outcome =>
    -- What is not waited for before is not waited for afterwards.
    have hkept : ∀ n, Session.lookup n s.waiting = none ∨ n = call →
        Session.lookup n (s.waiting.filter fun w => w.1 != call) = none := by
      intro n hn
      rw [Session.lookup_filter]
      split
      next => rfl
      next hne => exact hn.resolve_right hne
    have hwaited : Session.lookup call s.waiting ≠ none := by
      intro hnone
      rw [Session.ending?, hnone] at hending
      exact absurd hending (by simp)
    have hlt : call < s.nextCall := by
      refine Classical.byContradiction fun hge => hwaited ?_
      rw [Session.lookup_eq_none_iff]
      exact fun w hw heq => hge (heq ▸ hs.lt w.1 (List.mem_map_of_mem hw))
    have hnew : call ∉ calls := fun hmem => hwaited (h.lookup_eq_none call hmem)
    have hended : Patched (s.finish call) (calls ++ [call]) := by
      rw [Session.finish, hending]
      constructor
      · rw [List.nodup_append]
        refine ⟨h.nodup, by simp, fun a ha b hb heq => hnew ?_⟩
        rw [← List.mem_singleton.mp hb, ← heq]
        exact ha
      · intro n hn
        rcases List.mem_append.mp hn with hold | heq
        · exact h.lt n hold
        · rw [List.mem_singleton.mp heq]
          exact hlt
      · intro n hn
        rcases List.mem_append.mp hn with hold | heq
        · exact hkept n (.inl (h.lookup_eq_none n hold))
        · exact hkept n (.inr (List.mem_singleton.mp heq))
    rw [Session.finish, hending] at hended
    have hold : ∀ s' : Session ρ, Patched s' (calls ++ [call]) → Patched s' calls := fun s' h' =>
      ⟨h.nodup, fun n hn => h'.lt n (List.mem_append_left _ hn),
        fun n hn => h'.lookup_eq_none n (List.mem_append_left _ hn)⟩
    cases outcome with
    | error e => simpa using hold _ hended
    | ok elements =>
      dsimp only
      split
      next => simpa using hold _ hended
      next => exact hended

theorem Patched.act {s : Session ρ} {calls : List Nat} (h : Patched s calls)
    (hs : s.WaitingNumbered) (a : Action ρ) :
    Patched (s.act a) (calls ++ ((s.layer? a).bind LiveLayer.call?).toList) := by
  cases a with
  | call route id args =>
    show Patched (s.call route id args).2 (calls ++ [])
    rw [List.append_nil]
    exact h.call route id args
  | finish call => exact h.finish hs call
  | reload =>
    rw [Session.act, Session.layer?]
    cases s.store.reload with
    | none => exact h.unchanged rfl rfl rfl
    | some r => exact h.unchanged rfl rfl rfl
  | deliver response delivery =>
    rw [Session.act, Session.deliver]
    split <;> exact h.unchanged rfl rfl rfl
  | fetch => exact h.unchanged rfl rfl rfl
  | prefetch => exact h.unchanged rfl rfl rfl
  | seed => exact h.unchanged rfl rfl rfl
  | mount => exact h.unchanged rfl rfl rfl
  | refetch => exact h.unchanged rfl rfl rfl
  | clearEntry => exact h.unchanged rfl rfl rfl
  | setLive => exact h.unchanged rfl rfl rfl
  | addTransformer => exact h.unchanged rfl rfl rfl
  | addListener => exact h.unchanged rfl rfl rfl
  | unregister => exact h.unchanged rfl rfl rfl

/-- Over a whole run no call lays two patches. -/
theorem Patched.run {s : Session ρ} {calls : List Nat} (h : Patched s calls)
    (hs : s.WaitingNumbered) (actions : List (Action ρ)) :
    Patched (s.run actions) (calls ++ (s.history actions).filterMap LiveLayer.call?) := by
  induction actions generalizing s calls with
  | nil => simpa [Session.history] using h
  | cons a actions ih =>
    have hrest := ih (h.act hs a) (hs.act a)
    rw [Session.run_cons, Session.history, List.filterMap_append, ← List.append_assoc]
    have hlayer : ((s.layer? a).bind LiveLayer.call?).toList =
        (s.layer? a).toList.filterMap LiveLayer.call? := by
      cases s.layer? a with
      | none => rfl
      | some l => cases hl : l.call? <;> simp [hl]
    rw [hlayer] at hrest
    exact hrest

/-- **The live elements are layers.** After every run, what the live elements come to is what the
layers come to that were laid since the last replacement, whatever has arrived: an error of the
lowest one, and otherwise the others merged over it in the order in which they were laid, a refetch
that failed as no elements. The live elements were replaced once for each layer, and no call lays
two. A refetch that failed changes nothing but that it takes the value away. -/
theorem live_elements_are_layers (config : ClientConfig) (actions : List (Action ρ)) :
    let s := (Session.start ρ config).run actions
    let layers := (Session.start ρ config).history actions
    (∀ arrived, s.store.live.map (Promise.outcome? arrived) =
      LiveLayer.resolved? arrived (LiveLayer.visible layers)) ∧
    s.store.liveVersion = layers.length ∧
    (layers.filterMap LiveLayer.call?).Nodup ∧
    ∀ (elements : Elements) (before after : List Elements),
      (before ++ .empty :: after).foldl Elements.merge elements =
        ((before ++ after).foldl Elements.merge elements).erase Elements.valueKey := by
  intro s layers
  have hstart : (Session.start ρ config).WaitingNumbered :=
    ⟨List.nodup_nil, fun _ h => absurd h List.not_mem_nil⟩
  have hpatched : Patched (Session.start ρ config) [] :=
    ⟨List.nodup_nil, fun _ h => absurd h List.not_mem_nil, fun _ h => absurd h List.not_mem_nil⟩
  obtain ⟨hshows, hversion⟩ :=
    (Session.start ρ config).lays_run actions [] fun _ => rfl
  refine ⟨hshows, ?_, (hpatched.run hstart actions).nodup, Elements.foldl_merge_empty⟩
  exact hversion.trans (Nat.zero_add _)

end ServerBoundary.Client
