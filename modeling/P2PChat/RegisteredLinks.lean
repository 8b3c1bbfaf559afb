import Mathlib.Data.List.Nodup
import P2PChat.LinkRegistry

namespace P2PChat

namespace LinkRegistry

/-- A link is registered exactly while it is alive. -/
structure Registered (s : LinkRegistry) (l : Nat) : Prop where
  once : (s.connections (s.links l).server).count l ≤ 1
  alive : (s.links l).terminated = false → (s.links l).shutByServer = false →
    l ∈ s.connections (s.links l).server
  gone : (s.links l).terminated = true → (∀ registry, l ∉ s.connections registry) ∧ (s.links l).self = false

def Exact (s : LinkRegistry) : Prop := ∀ l < s.created, s.Registered l

/-- What all runs keep: a link is in no registry but its own, and only outgoing links have connect callbacks,
only accepted ones are shut down by a handle. -/
structure Sound (s : LinkRegistry) : Prop where
  nodup : ∀ registry, (s.connections registry).Nodup
  own : ∀ registry, ∀ l ∈ s.connections registry, l < s.created ∧ (s.links l).server = registry
  connecting : ∀ l, (s.links l).connectCallbacks = true → (s.links l).server = none
  shut : ∀ l, (s.links l).shutByServer = true → (s.links l).server ≠ none

/-- The link is terminated, and nothing holds it. -/
structure Gone (s : LinkRegistry) (l : Nat) : Prop where
  terminated : (s.links l).terminated = true
  self : (s.links l).self = false
  absent : ∀ registry, l ∉ s.connections registry

/-- Only `l` is concerned: it may leave its registry, the other links stay in theirs. -/
structure Concerns (l : Nat) (s s' : LinkRegistry) : Prop where
  created : s'.created = s.created
  others : ∀ m, m ≠ l → s'.links m = s.links m
  server : (s'.links l).server = (s.links l).server
  connectCallbacks : (s'.links l).connectCallbacks = true → (s.links l).connectCallbacks = true
  shutByServer : (s'.links l).shutByServer = (s.links l).shutByServer
  sublist : ∀ registry, (s'.connections registry).Sublist (s.connections registry)
  kept : ∀ registry m, m ≠ l → m ∈ s.connections registry → m ∈ s'.connections registry

section Changes

variable {s s' s'' : LinkRegistry} {l m : Nat}

theorem create_sound : create.Sound where
  nodup _ := List.nodup_nil
  own _ _ hmem := absurd hmem List.not_mem_nil
  connecting _ _ := rfl
  shut _ hshut := absurd hshut Bool.false_ne_true

theorem create_exact : create.Exact := fun l hl => absurd hl (Nat.not_lt_zero l)

theorem Sound.once (hs : s.Sound) (l : Nat) : (s.connections (s.links l).server).count l ≤ 1 :=
  List.nodup_iff_count_le_one.mp (hs.nodup _) l

theorem Gone.registered (hs : s.Sound) (h : s.Gone l) : s.Registered l where
  once := hs.once l
  alive halive := absurd (h.terminated.symm.trans halive) Bool.noConfusion
  gone _ := ⟨h.absent, h.self⟩

theorem Concerns.refl (l : Nat) (s : LinkRegistry) : Concerns l s s :=
  ⟨rfl, fun _ _ => rfl, rfl, id, rfl, fun _ => .refl _, fun _ _ _ => id⟩

theorem Concerns.trans (h : Concerns l s s') (h' : Concerns l s' s'') : Concerns l s s'' where
  created := h'.created.trans h.created
  others m hm := (h'.others m hm).trans (h.others m hm)
  server := h'.server.trans h.server
  connectCallbacks hset := h.connectCallbacks (h'.connectCallbacks hset)
  shutByServer := h'.shutByServer.trans h.shutByServer
  sublist registry := (h'.sublist registry).trans (h.sublist registry)
  kept registry m hm hmem := h'.kept registry m hm (h.kept registry m hm hmem)

theorem Concerns.server_eq (h : Concerns l s s') (m : Nat) : (s'.links m).server = (s.links m).server := by
  by_cases hm : m = l
  · rw [hm]
    exact h.server
  · rw [h.others m hm]

theorem Concerns.sound (hs : s.Sound) (h : Concerns l s s') : s'.Sound where
  nodup registry := (hs.nodup registry).sublist (h.sublist registry)
  own registry m hmem := by
    obtain ⟨hlt, hserver⟩ := hs.own registry m ((h.sublist registry).subset hmem)
    exact ⟨by rw [h.created]; exact hlt, (h.server_eq m).trans hserver⟩
  connecting m hset := by
    rw [h.server_eq]
    by_cases hm : m = l
    · rw [hm] at hset ⊢
      exact hs.connecting l (h.connectCallbacks hset)
    · rw [h.others m hm] at hset
      exact hs.connecting m hset
  shut m hshut := by
    rw [h.server_eq]
    by_cases hm : m = l
    · rw [hm] at hshut ⊢
      exact hs.shut l (h.shutByServer ▸ hshut)
    · rw [h.others m hm] at hshut
      exact hs.shut m hshut

theorem Concerns.exact (hs : s.Sound) (he : s.Exact) (h : Concerns l s s') (hl : s'.Registered l) : s'.Exact := by
  intro m hm
  by_cases heq : m = l
  · rw [heq]
    exact hl
  · have hold := he m (h.created ▸ hm)
    have hlink := h.others m heq
    refine ⟨(h.sound hs).once m, fun halive hopen => ?_, fun hgone => ?_⟩
    · rw [hlink] at halive hopen ⊢
      exact h.kept _ m heq (hold.alive halive hopen)
    · rw [hlink] at hgone ⊢
      obtain ⟨habsent, hself⟩ := hold.gone hgone
      exact ⟨fun registry hmem => habsent registry ((h.sublist registry).subset hmem), hself⟩

/-- What is changed of the link leaves where it belongs. -/
theorem modify_concerns {f : LinkObject → LinkObject} (l : Nat) (s : LinkRegistry)
    (hserver : ∀ link, (f link).server = link.server)
    (hcallbacks : ∀ link, (f link).connectCallbacks = true → link.connectCallbacks = true)
    (hshut : ∀ link, (f link).shutByServer = link.shutByServer) : Concerns l s (s.modify l f) where
  created := rfl
  others m hm := Function.update_of_ne hm _ _
  server := (congrArg LinkObject.server (Function.update_self l _ s.links)).trans (hserver _)
  connectCallbacks hset := by
    have hlink : (s.modify l f).links l = f (s.links l) := Function.update_self l _ s.links
    rw [hlink] at hset
    exact hcallbacks _ hset
  shutByServer := (congrArg LinkObject.shutByServer (Function.update_self l _ s.links)).trans (hshut _)
  sublist _ := .refl _
  kept _ _ _ := id

theorem modify_self (l : Nat) (f : LinkObject → LinkObject) (s : LinkRegistry) :
    (s.modify l f).links l = f (s.links l) := Function.update_self l _ s.links

theorem setTerminated_concerns (l : Nat) (s : LinkRegistry) : Concerns l s (s.setTerminated l) :=
  modify_concerns l s (fun _ => rfl) (fun _ => id) fun _ => rfl

theorem resetSelf_concerns (l : Nat) (s : LinkRegistry) : Concerns l s (s.resetSelf l) :=
  modify_concerns l s (fun _ => rfl) (fun _ => id) fun _ => rfl

theorem enable_concerns (l : Nat) (s : LinkRegistry) : Concerns l s (s.enable l) :=
  modify_concerns l s (fun _ => rfl) (fun _ => id) fun _ => rfl

theorem removeFrom_concerns (registry : Option Nat) (l : Nat) (s : LinkRegistry) :
    Concerns l s (s.removeFrom registry l) where
  created := rfl
  others _ _ := rfl
  server := rfl
  connectCallbacks := id
  shutByServer := rfl
  sublist other := by
    unfold removeFrom Function.update
    dsimp only
    split
    next heq =>
      subst heq
      exact List.erase_sublist
    next => exact .refl _
  kept other m hm hmem := by
    unfold removeFrom Function.update
    dsimp only
    split
    next heq =>
      subst heq
      exact (List.mem_erase_of_ne hm).mpr hmem
    next => exact hmem

theorem unregister_eq (l : Nat) (s : LinkRegistry) : s.unregister l = s.removeFrom (s.links l).server l := by
  unfold unregister
  split
  next hserver =>
    rw [hserver]
    rfl
  next hserver =>
    rw [hserver]
    rfl

theorem unregister_concerns (l : Nat) (s : LinkRegistry) : Concerns l s (s.unregister l) := by
  rw [unregister_eq]
  exact removeFrom_concerns _ l s

theorem removeFrom_absent (hs : s.Sound) (l : Nat) (registry : Option Nat) :
    l ∉ (s.removeFrom (s.links l).server l).connections registry := by
  intro hmem
  have hold := ((removeFrom_concerns (s.links l).server l s).sublist registry).subset hmem
  obtain ⟨_, hserver⟩ := hs.own registry l hold
  have herased : (s.removeFrom registry l).connections registry = (s.connections registry).erase l :=
    Function.update_self registry _ s.connections
  rw [hserver, herased] at hmem
  exact (hs.nodup registry).not_mem_erase hmem

/-- A link that has removed itself is in no registry. -/
theorem unregister_absent (hs : s.Sound) (l : Nat) (registry : Option Nat) :
    l ∉ (s.unregister l).connections registry := by
  rw [unregister_eq]
  exact removeFrom_absent hs l registry

/-- The end of a link that is in no registry any more. -/
theorem reset_gone (h : ∀ registry, l ∉ s.connections registry) : ((s.resetSelf l).setTerminated l).Gone l where
  terminated := by
    rw [setTerminated, modify_self]
  self := by
    rw [setTerminated, modify_self, resetSelf, modify_self]
  absent := h

theorem reset_concerns (l : Nat) (s : LinkRegistry) : Concerns l s ((s.resetSelf l).setTerminated l) :=
  (resetSelf_concerns l s).trans (setTerminated_concerns l _)

theorem close_concerns (l : Nat) (s : LinkRegistry) : Concerns l s (s.close l) :=
  (unregister_concerns l s).trans (reset_concerns l _)

theorem close_gone (hs : s.Sound) (l : Nat) : (s.close l).Gone l := reset_gone (unregister_absent hs l)

theorem callback_concerns (closes : Bool) (l : Nat) (s : LinkRegistry) : Concerns l s (s.callback closes l) := by
  unfold callback
  split
  next => exact close_concerns l s
  next => exact .refl l s

theorem eventCallback_concerns (l : Nat) (what : LinkWhat) (closes : Bool) (s : LinkRegistry) :
    Concerns l s (s.eventCallback l what closes) := by
  have hcallback := callback_concerns closes l s
  have hleaves := hcallback.trans (unregister_concerns l _)
  cases what with
  | error =>
    unfold eventCallback
    dsimp only
    split
    next => exact hcallback.trans (reset_concerns l _)
    next => exact hleaves.trans (reset_concerns l _)
  | connected =>
    unfold eventCallback
    dsimp only
    split
    next =>
      exact hcallback.trans
        (modify_concerns l _ (fun _ => rfl) (fun _ hset => absurd hset Bool.false_ne_true) fun _ => rfl)
    next => exact .refl l s
  | eof => exact hleaves.trans (reset_concerns l _)

end Changes

section Steps

variable {s : LinkRegistry} {l : Nat}

/-- Every end but that of a connect that fails leaves nothing. -/
theorem ended_gone (hs : s.Sound) {what : LinkWhat} {closes : Bool} (hends : what ≠ .connected)
    (htidy : what = .error → (s.links l).connectCallbacks = true → closes = true) :
    (s.eventCallback l what closes).Gone l := by
  have hcalled := (callback_concerns closes l s).sound hs
  cases what with
  | error =>
    unfold eventCallback
    dsimp only
    split
    next hset =>
      have hcloses : s.callback closes l = s.close l := if_pos (htidy rfl hset)
      rw [hcloses]
      exact reset_gone (close_gone hs l).absent
    next => exact reset_gone (unregister_absent hcalled l)
  | connected => exact absurd rfl hends
  | eof => exact reset_gone (unregister_absent hcalled l)

/-- A link that gets its connection goes on, or is closed. -/
theorem connected_registered (hs : s.Sound) (h : s.Registered l) (closes : Bool) :
    (s.eventCallback l .connected closes).Registered l := by
  have hsound := (eventCallback_concerns l .connected closes s).sound hs
  unfold eventCallback at hsound ⊢
  dsimp only at hsound ⊢
  split
  next hset =>
    rw [if_pos hset] at hsound
    cases closes with
    | true =>
      have hgone := close_gone hs l
      refine Gone.registered hsound ⟨?_, ?_, hgone.absent⟩
      · rw [modify_self]
        exact hgone.terminated
      · rw [modify_self]
        exact hgone.self
    | false =>
      refine ⟨hsound.once l, fun halive hopen => ?_, fun hgone => ?_⟩
      · rw [modify_self] at halive hopen ⊢
        exact h.alive halive hopen
      · rw [modify_self] at hgone ⊢
        exact h.gone hgone
  next => exact h

/-- A link that was constructed, and put in its registry. -/
def added (server : Option Nat) (connecting : Bool) (s : LinkRegistry) : LinkRegistry :=
  (s.construct server connecting).addTo server s.created

theorem added_self (server : Option Nat) (connecting : Bool) (s : LinkRegistry) :
    (s.added server connecting).links s.created = ⟨server, connecting, false, false, false⟩ :=
  Function.update_self s.created _ s.links

theorem added_other {server : Option Nat} {connecting : Bool} {m : Nat} (hm : m ≠ s.created) :
    (s.added server connecting).links m = s.links m := Function.update_of_ne hm _ s.links

theorem added_connections (server : Option Nat) (connecting : Bool) (s : LinkRegistry) (registry : Option Nat) :
    (s.added server connecting).connections registry =
      s.connections registry ++ if registry = server then [s.created] else [] := by
  have hupdate : (s.added server connecting).connections registry =
      Function.update s.connections server (s.connections server ++ [s.created]) registry := rfl
  rw [hupdate]
  by_cases heq : registry = server
  · rw [heq, Function.update_self, if_pos rfl]
  · rw [Function.update_of_ne heq, if_neg heq, List.append_nil]

theorem added_sound (hs : s.Sound) {server : Option Nat} {connecting : Bool}
    (hserver : connecting = true → server = none) : (s.added server connecting).Sound where
  nodup registry := by
    rw [added_connections]
    split
    next =>
      refine List.nodup_append.mpr ⟨hs.nodup registry, List.nodup_singleton _, fun m hm m' hm' => ?_⟩
      have hlt := (hs.own registry m hm).1
      rw [List.mem_singleton.mp hm']
      exact Nat.ne_of_lt hlt
    next =>
      rw [List.append_nil]
      exact hs.nodup registry
  own registry m hmem := by
    rw [added_connections] at hmem
    rcases List.mem_append.mp hmem with hold | hnew
    · obtain ⟨hlt, hown⟩ := hs.own registry m hold
      rw [added_other (Nat.ne_of_lt hlt)]
      exact ⟨Nat.lt_succ_of_lt hlt, hown⟩
    · split at hnew
      next heq =>
        rw [List.mem_singleton.mp hnew, added_self]
        exact ⟨Nat.lt_succ_self _, heq.symm⟩
      next => exact absurd hnew List.not_mem_nil
  connecting m hset := by
    by_cases hm : m = s.created
    · rw [hm, added_self] at hset ⊢
      exact hserver hset
    · rw [added_other hm] at hset ⊢
      exact hs.connecting m hset
  shut m hshut := by
    by_cases hm : m = s.created
    · rw [hm, added_self] at hshut
      exact absurd hshut Bool.false_ne_true
    · rw [added_other hm] at hshut ⊢
      exact hs.shut m hshut

theorem added_exact (hs : s.Sound) (he : s.Exact) {server : Option Nat} {connecting : Bool}
    (hserver : connecting = true → server = none) : (s.added server connecting).Exact := by
  have hsound := added_sound hs hserver
  intro m hm
  by_cases heq : m = s.created
  · rw [heq]
    refine ⟨hsound.once _, fun _ _ => ?_, fun hgone => ?_⟩
    · rw [added_self, added_connections, if_pos rfl]
      exact List.mem_append_right _ (List.mem_singleton.mpr rfl)
    · rw [added_self] at hgone
      exact absurd hgone Bool.false_ne_true
  · have hlt : m < s.created := by
      have hle : m < s.created + 1 := hm
      omega
    have hold := he m hlt
    refine ⟨hsound.once m, fun halive hopen => ?_, fun hgone => ?_⟩
    · rw [added_other heq] at halive hopen ⊢
      rw [added_connections]
      exact List.mem_append_left _ (hold.alive halive hopen)
    · rw [added_other heq] at hgone ⊢
      obtain ⟨habsent, hself⟩ := hold.gone hgone
      refine ⟨fun registry hmem => ?_, hself⟩
      rw [added_connections] at hmem
      rcases List.mem_append.mp hmem with hin | hnew
      · exact habsent registry hin
      · split at hnew
        next => exact heq (List.mem_singleton.mp hnew)
        next => exact absurd hnew List.not_mem_nil

theorem enable_registered (h : s.Registered l) (halive : (s.links l).terminated = false) :
    (s.enable l).Registered l := by
  have hlink : (s.enable l).links l = { s.links l with self := true } := modify_self l _ s
  refine ⟨?_, fun halive' hopen => ?_, fun hgone => ?_⟩
  · rw [hlink]
    exact h.once
  · rw [hlink] at halive' hopen ⊢
    exact h.alive halive' hopen
  · rw [hlink] at hgone
    exact absurd (halive.symm.trans hgone) Bool.false_ne_true

/-- A new link whose `OnLinkCreated` does not call `Close`. -/
theorem enabled_exact (hs : s.Sound) (he : s.Exact) {server : Option Nat} {connecting : Bool}
    (hserver : connecting = true → server = none) :
    ((s.added server connecting).enable s.created).Exact := by
  have hexact := added_exact hs he hserver
  refine (enable_concerns s.created _).exact (added_sound hs hserver) hexact ?_
  refine enable_registered (hexact _ (Nat.lt_succ_self _)) ?_
  rw [added_self]

theorem closeHandle_connections (handle : Nat) (s : LinkRegistry) (registry : Option Nat) :
    (s.closeHandle handle).connections registry = if registry = some handle then [] else s.connections registry := by
  have hupdate : (s.closeHandle handle).connections registry =
      Function.update s.connections (some handle) [] registry := rfl
  rw [hupdate]
  split
  next heq => rw [heq, Function.update_self]
  next hne => rw [Function.update_of_ne hne]

theorem closeHandle_link (handle : Nat) (s : LinkRegistry) (m : Nat) :
    (s.closeHandle handle).links m =
      if m ∈ s.connections (some handle) then { s.links m with shutByServer := true } else s.links m := rfl

theorem closeHandle_sound (hs : s.Sound) (handle : Nat) : (s.closeHandle handle).Sound where
  nodup registry := by
    rw [closeHandle_connections]
    split
    next => exact List.nodup_nil
    next => exact hs.nodup registry
  own registry m hmem := by
    rw [closeHandle_connections] at hmem
    split at hmem
    next => exact absurd hmem List.not_mem_nil
    next =>
      obtain ⟨hlt, hown⟩ := hs.own registry m hmem
      refine ⟨hlt, ?_⟩
      rw [closeHandle_link]
      split
      next => exact hown
      next => exact hown
  connecting m hset := by
    rw [closeHandle_link] at hset ⊢
    split at hset
    next hin =>
      rw [if_pos hin]
      exact hs.connecting m hset
    next hnot =>
      rw [if_neg hnot]
      exact hs.connecting m hset
  shut m hshut := by
    rw [closeHandle_link] at hshut ⊢
    split at hshut
    next hin =>
      rw [if_pos hin]
      change (s.links m).server ≠ none
      rw [(hs.own _ m hin).2]
      exact Option.some_ne_none handle
    next hnot =>
      rw [if_neg hnot]
      exact hs.shut m hshut

theorem closeHandle_exact (hs : s.Sound) (he : s.Exact) (handle : Nat) : (s.closeHandle handle).Exact := by
  intro m hm
  have hold := he m hm
  by_cases hin : m ∈ s.connections (some handle)
  · have hlink : (s.closeHandle handle).links m = { s.links m with shutByServer := true } := if_pos hin
    refine ⟨(closeHandle_sound hs handle).once m, fun _ hopen => ?_, fun hgone => ?_⟩
    · rw [hlink] at hopen
      exact absurd hopen.symm Bool.false_ne_true
    · rw [hlink] at hgone
      exact absurd hin ((hold.gone hgone).1 _)
  · have hlink : (s.closeHandle handle).links m = s.links m := if_neg hin
    refine ⟨(closeHandle_sound hs handle).once m, fun halive hopen => ?_, fun hgone => ?_⟩
    · rw [hlink] at halive hopen ⊢
      have hmem := hold.alive halive hopen
      have hne : (s.links m).server ≠ some handle := fun heq => hin (heq ▸ hmem)
      rw [closeHandle_connections, if_neg hne]
      exact hmem
    · rw [hlink] at hgone ⊢
      obtain ⟨habsent, hself⟩ := hold.gone hgone
      refine ⟨fun registry hmem => ?_, hself⟩
      rw [closeHandle_connections] at hmem
      split at hmem
      next => exact absurd hmem List.not_mem_nil
      next => exact habsent registry hmem

end Steps

section Runs

variable {s : LinkRegistry} {l : Nat}

/-- A new link after `OnLinkCreated` and `Enable`. -/
def opened (server : Option Nat) (connecting closes : Bool) (s : LinkRegistry) : LinkRegistry :=
  ((s.added server connecting).callback closes s.created).enable s.created

theorem opened_concerns (server : Option Nat) (connecting closes : Bool) (s : LinkRegistry) :
    Concerns s.created (s.added server connecting) (s.opened server connecting closes) :=
  (callback_concerns closes s.created _).trans (enable_concerns s.created _)

theorem opened_sound (hs : s.Sound) {server : Option Nat} {connecting : Bool}
    (hserver : connecting = true → server = none) (closes : Bool) : (s.opened server connecting closes).Sound :=
  (opened_concerns server connecting closes s).sound (added_sound hs hserver)

/-- What a connect that fails does to the link that it has made. -/
theorem dropped_concerns (l : Nat) (s : LinkRegistry) : Concerns l s ((s.removeLink l).setTerminated l) :=
  (removeFrom_concerns none l s).trans (setTerminated_concerns l _)

theorem step_sound (hs : s.Sound) (e : RegistryEvent) : (s.step e).Sound := by
  cases e with
  | listen => exact ⟨hs.nodup, hs.own, hs.connecting, hs.shut⟩
  | connect result closes =>
    have hopened : (s.opened none true closes).Sound := opened_sound hs (fun _ => rfl) closes
    cases result with
    | queued => exact hopened
    | failed => exact (dropped_concerns s.created _).sound hopened
    | reported again =>
      have hended := (eventCallback_concerns s.created .error again _).sound hopened
      exact (dropped_concerns s.created _).sound hended
  | accept handle closes => exact opened_sound hs (fun h => absurd h Bool.false_ne_true) closes
  | event l what closes => exact (eventCallback_concerns l what closes s).sound hs
  | close l => exact (close_concerns l s).sound hs
  | closeHandle handle => exact closeHandle_sound hs handle

/-- No connect fails without a report, none that is queued gets an error that `OnError` does not answer by a
`Close`, and no `OnLinkCreated` calls `Close`. -/
def tidy (s : LinkRegistry) : RegistryEvent → Bool
  | .connect result closes => result != .failed && !closes
  | .accept _ closes => !closes
  | .event l .error closes => !(s.links l).connectCallbacks || closes
  | _ => true

theorem error_self (closes : Bool) (l : Nat) (s : LinkRegistry) :
    ((s.eventCallback l .error closes).links l).self = false := by
  unfold eventCallback
  dsimp only
  split
  next => rw [setTerminated, modify_self, resetSelf, modify_self]
  next => rw [setTerminated, modify_self, resetSelf, modify_self]

/-- A link of a connect that was reported to fail is held by nothing. -/
theorem reported_gone (hs : s.Sound) (hserver : (s.links l).server = none) (again : Bool) :
    (((s.eventCallback l .error again).removeLink l).setTerminated l).Gone l := by
  have hconcerns := eventCallback_concerns l .error again s
  have hself := error_self again l s
  have habsent := removeFrom_absent (hconcerns.sound hs) l
  rw [hconcerns.server, hserver] at habsent
  refine ⟨?_, ?_, habsent⟩
  · rw [setTerminated, modify_self]
  · rw [setTerminated, modify_self]
    exact hself

theorem step_exact (hs : s.Sound) (he : s.Exact) {e : RegistryEvent} (henabled : s.enabled e = true)
    (htidy : s.tidy e = true) : (s.step e).Exact := by
  cases e with
  | listen => exact fun l hl => ⟨(he l hl).once, (he l hl).alive, (he l hl).gone⟩
  | connect result closes =>
    simp only [tidy, Bool.and_eq_true, bne_iff_ne, Bool.not_eq_true'] at htidy
    obtain ⟨hresult, rfl⟩ := htidy
    cases result with
    | queued => exact enabled_exact hs he fun _ => rfl
    | failed => exact absurd rfl hresult
    | reported again =>
      have hopened : (s.opened none true false).Sound := opened_sound hs (fun _ => rfl) false
      have hexact : (s.opened none true false).Exact := enabled_exact hs he fun _ => rfl
      have hserver : ((s.opened none true false).links s.created).server = none := by
        rw [(opened_concerns none true false s).server, added_self]
      have hconcerns := (eventCallback_concerns s.created .error again (s.opened none true false)).trans
        (dropped_concerns s.created _)
      exact hconcerns.exact hopened hexact ((reported_gone hopened hserver again).registered (hconcerns.sound hopened))
  | accept handle closes =>
    simp only [tidy, Bool.not_eq_true'] at htidy
    subst htidy
    exact enabled_exact hs he fun h => absurd h Bool.false_ne_true
  | event l what closes =>
    have hconcerns := eventCallback_concerns l what closes s
    have hsound := hconcerns.sound hs
    simp only [enabled, Bool.and_eq_true, decide_eq_true_eq, Bool.not_eq_true'] at henabled
    refine hconcerns.exact hs he ?_
    cases what with
    | error =>
      have hcloses : LinkWhat.error = .error → (s.links l).connectCallbacks = true → closes = true := by
        intro _ hset
        simpa [tidy, hset] using htidy
      exact (ended_gone hs (by rintro ⟨⟩) hcloses).registered hsound
    | connected => exact connected_registered hs (he l henabled.1) closes
    | eof =>
      have hgone : (s.eventCallback l .eof closes).Gone l := ended_gone hs (by rintro ⟨⟩) fun h => by cases h
      exact hgone.registered hsound
  | close l => exact (close_concerns l s).exact hs he ((close_gone hs l).registered ((close_concerns l s).sound hs))
  | closeHandle handle => exact closeHandle_exact hs he handle

theorem opened_lt (server : Option Nat) (connecting closes : Bool) (s : LinkRegistry) :
    s.created < (s.opened server connecting closes).created := by
  rw [(opened_concerns server connecting closes s).created]
  exact Nat.lt_succ_self _

/-- `Enable` sets `m_Self`, also where `OnLinkCreated` has reset it. -/
theorem opened_self (server : Option Nat) (connecting closes : Bool) (s : LinkRegistry) :
    ((s.opened server connecting closes).links s.created).self = true := by
  rw [opened, enable, modify_self]

theorem not_exact (hl : l < s.created) (hgone : (s.links l).terminated = true) (hself : (s.links l).self = true) :
    ¬s.Exact := fun he => absurd (hself.symm.trans ((he l hl).gone hgone).2) Bool.noConfusion

/-- A link that `OnLinkCreated` closes holds itself afterwards. -/
theorem opened_inexact (hs : s.Sound) {server : Option Nat} {connecting : Bool}
    (hserver : connecting = true → server = none) : ¬(s.opened server connecting true).Exact := by
  refine not_exact (opened_lt server connecting true s) ?_ (opened_self server connecting true s)
  rw [opened, enable, modify_self]
  exact (close_gone (added_sound hs hserver) s.created).terminated

/-- Where the step is not tidy a link is left behind. -/
theorem step_inexact (hs : s.Sound) (he : s.Exact) {e : RegistryEvent} (henabled : s.enabled e = true)
    (htidy : s.tidy e = false) : ¬(s.step e).Exact := by
  cases e with
  | listen => cases htidy
  | connect result closes =>
    cases result with
    | queued =>
      have hcloses : closes = true := by simpa [tidy] using htidy
      rw [hcloses]
      exact opened_inexact hs fun _ => rfl
    | failed =>
      have hdropped : s.step (.connect .failed closes) =
          ((s.opened none true closes).removeLink s.created).setTerminated s.created := rfl
      rw [hdropped]
      refine not_exact (opened_lt none true closes s) ?_ ?_
      · rw [setTerminated, modify_self]
      · rw [setTerminated, modify_self]
        exact opened_self none true closes s
    | reported again =>
      simp only [enabled, Bool.not_eq_true'] at henabled
      subst henabled
      cases htidy
  | accept handle closes =>
    have hcloses : closes = true := by simpa [tidy] using htidy
    rw [hcloses]
    exact opened_inexact hs fun h => absurd h Bool.false_ne_true
  | event l what closes =>
    cases what with
    | error =>
      simp only [tidy, Bool.or_eq_false_iff, Bool.not_eq_false'] at htidy
      obtain ⟨hset, rfl⟩ := htidy
      simp only [enabled, Bool.and_eq_true, decide_eq_true_eq, Bool.not_eq_true'] at henabled
      have hserver := hs.connecting l hset
      have hopen : (s.links l).shutByServer = false :=
        Bool.eq_false_iff.mpr fun hshut => hs.shut l hshut hserver
      have hmem := (he l henabled.1).alive henabled.2 hopen
      have hstep : s.step (.event l .error false) = (s.resetSelf l).setTerminated l := if_pos hset
      intro hexact
      rw [hstep] at hexact
      have hgone := (hexact l henabled.1).gone (by rw [setTerminated, modify_self])
      exact hgone.1 _ hmem
    | connected => cases htidy
    | eof => cases htidy
  | close l => cases htidy
  | closeHandle handle => cases htidy

/-- In a run links are registered exactly while they are alive after every step, if and only if every step is
tidy. -/
theorem links_exact_iff {events : List RegistryEvent}
    (h : registryMachine.Along registryMachine.enabled events create) :
    registryMachine.Along (fun s e => ∀ s', registryMachine.step s e = .ok s' → s'.Exact) events create ↔
      registryMachine.Along (fun s e => s.tidy e = true) events create := by
  have hsound := h.invariant (I := Sound) (fun s e s' hs _ hstep => by
    cases hstep
    exact step_sound hs e) create_sound
  refine Machine.along_keeps_iff (fun s e s' he hr htidy hstep => ?_) (fun s e he hr htidy => ?_) create_exact hsound
  · cases hstep
    exact step_exact hr.2 he hr.1 htidy
  · exact ⟨s.step e, rfl, step_inexact hr.2 he hr.1 (Bool.eq_false_iff.mpr htidy)⟩

/-- A client of a server that closes its handle, and a connection to elsewhere that ends. -/
def session : List RegistryEvent :=
  [.listen, .accept 0 false, .connect .queued false, .event 1 .connected false, .closeHandle 0, .event 1 .eof true,
    .event 0 .error false, .connect (.reported true) false]

theorem links_exact_session : registryMachine.Along
    (fun s e => ∀ s', registryMachine.step s e = .ok s' → s'.Exact) session create := by
  have henabled : (registryMachine.replay enabled session create).isSome = true := rfl
  have htidy : (registryMachine.replay tidy session create).isSome = true := rfl
  obtain ⟨s, hs⟩ := Option.isSome_iff_exists.mp henabled
  obtain ⟨s', hs'⟩ := Option.isSome_iff_exists.mp htidy
  exact (links_exact_iff (Machine.replay_along (fun _ _ => id) hs)).mpr
    (Machine.replay_along (fun _ _ => id) hs')

/-- A connect that fails at once leaves the link its `m_Self`, one that fails later leaves it in the registry. -/
theorem failed_connects :
    ¬registryMachine.Along (fun s e => ∀ s', registryMachine.step s e = .ok s' → s'.Exact)
      [.connect .failed false] create ∧
    ¬registryMachine.Along (fun s e => ∀ s', registryMachine.step s e = .ok s' → s'.Exact)
      [.connect .queued false, .event 0 .error false] create := by
  have hqueued : (create.step (.connect .queued false)).Exact :=
    step_exact create_sound create_exact rfl rfl
  refine ⟨fun h => ?_, fun h => ?_⟩
  · exact step_inexact create_sound create_exact rfl rfl (h.1 _ rfl)
  · exact step_inexact (step_sound create_sound _) hqueued rfl rfl ((h.2 _ rfl).1 _ rfl)

end Runs

end LinkRegistry

end P2PChat
