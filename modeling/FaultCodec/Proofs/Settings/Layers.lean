import FaultCodec.Proofs.Settings.Rules

/-!
# Layers of settings

Settings that are laid over each other keep every field of one of the layers, and the section as a
whole. A rule about a field, and also one about two fields of the section, is therefore broken by
the result only where it is broken by a layer.
-/

namespace FaultCodec
namespace Settings

theorem pick_eq {α : Type} [DecidableEq α] (standard base overlay : α) :
    pick standard base overlay = base ∨ pick standard base overlay = overlay := by
  unfold pick
  split_ifs
  · exact Or.inr rfl
  · exact Or.inl rfl

theorem mem_reasonsWith_merge {diagnose : String → Option String} {base overlay : Settings}
    {r : Reason} (h : r ∈ (merge base overlay).reasonsWith diagnose) :
    r ∈ base.reasonsWith diagnose ∨ r ∈ overlay.reasonsWith diagnose := by
  simp only [mem_reasonsWith_iff]
  rcases (mem_reasonsWith_iff diagnose _ r).mp h with hn | hl | ⟨remote, hs, hr⟩
  · have hp : (merge base overlay).serviceName = base.serviceName ∨
        (merge base overlay).serviceName = overlay.serviceName := pick_eq _ _ _
    rcases hp with hp | hp
    · exact Or.inl (Or.inl (hp ▸ hn))
    · exact Or.inr (Or.inl (hp ▸ hn))
  · have hp : (merge base overlay).logLevel = base.logLevel ∨
        (merge base overlay).logLevel = overlay.logLevel := pick_eq _ _ _
    rcases hp with hp | hp
    · exact Or.inl (Or.inr (Or.inl (hp ▸ hl)))
    · exact Or.inr (Or.inr (Or.inl (hp ▸ hl)))
  · -- the section is taken as a whole, so a rule about two of its fields stays within one layer
    rcases Option.or_eq_some_iff.mp hs with ho | ⟨_, hb⟩
    · exact Or.inr (Or.inr (Or.inr ⟨remote, ho, hr⟩))
    · exact Or.inl (Or.inr (Or.inr ⟨remote, hb, hr⟩))

/-- Every reason against the result is one against a layer. -/
theorem mem_reasonsWith_foldl_merge {diagnose : String → Option String} {base : Settings}
    {layers : List Settings} {r : Reason}
    (h : r ∈ (layers.foldl merge base).reasonsWith diagnose) :
    ∃ s ∈ base :: layers, r ∈ s.reasonsWith diagnose := by
  induction layers generalizing base with
  | nil => exact ⟨base, List.mem_singleton_self base, h⟩
  | cons overlay layers ih =>
    obtain ⟨s, hs, hr⟩ := ih h
    rcases List.mem_cons.mp hs with rfl | hs
    · rcases mem_reasonsWith_merge hr with hr | hr
      · exact ⟨base, List.mem_cons_self, hr⟩
      · exact ⟨overlay, List.mem_cons_of_mem _ List.mem_cons_self, hr⟩
    · exact ⟨s, List.mem_cons_of_mem _ (List.mem_cons_of_mem _ hs), hr⟩

/-- The section of the last layer that has one. -/
def lastRemoteRead? (layers : List Settings) : Option RemoteRead :=
  (layers.filterMap remoteRead).getLast?

theorem getLast?_filterMap_cons {α β : Type} (f : α → Option β) (a : α) (as : List α) :
    ((a :: as).filterMap f).getLast? = (as.filterMap f).getLast?.or (f a) := by
  cases h : f a with
  | none => simp [h]
  | some b =>
    rw [List.filterMap_cons_some h, List.getLast?_cons]
    cases (as.filterMap f).getLast? <;> rfl

theorem lastRemoteRead?_cons (s : Settings) (layers : List Settings) :
    lastRemoteRead? (s :: layers) = (lastRemoteRead? layers).or s.remoteRead :=
  getLast?_filterMap_cons remoteRead s layers

theorem lastRemoteRead?_eq_none_iff (layers : List Settings) :
    lastRemoteRead? layers = none ↔ ∀ s ∈ layers, s.remoteRead = none := by
  simp [lastRemoteRead?]

@[simp] theorem remoteRead_foldl_merge (base : Settings) (layers : List Settings) :
    (layers.foldl merge base).remoteRead = lastRemoteRead? (base :: layers) := by
  rw [lastRemoteRead?_cons]
  induction layers generalizing base with
  | nil => rfl
  | cons overlay layers ih =>
    have hm : (merge base overlay).remoteRead = overlay.remoteRead.or base.remoteRead := rfl
    rw [List.foldl_cons, ih, hm, lastRemoteRead?_cons, Option.or_assoc]

/-- Whatever log filters are accepted, layers break all the rules that their result breaks, so the
result of acceptable layers is acceptable. Its warnings are about the section of the last layer that
has one, or about there being none. -/
theorem merged_layers_valid (diagnose : String → Option String) (base : Settings)
    (layers : List Settings) :
    (∀ rs, (layers.foldl merge base).validateWith diagnose = .error rs → ∀ r ∈ rs,
      ∃ s ∈ base :: layers, ∃ rs', s.validateWith diagnose = .error rs' ∧ r ∈ rs') ∧
    ((∀ s ∈ base :: layers, ∃ ws, s.validateWith diagnose = .ok ws) →
      ∃ ws, (layers.foldl merge base).validateWith diagnose = .ok ws) ∧
    ∀ ws, (layers.foldl merge base).validateWith diagnose = .ok ws →
      (.missingRemoteRead ∈ ws ↔ ∀ s ∈ base :: layers, s.remoteRead = none) ∧
      ∀ seconds, .largeTimeout seconds ∈ ws ↔
        ∃ remote, lastRemoteRead? (base :: layers) = some remote ∧
          remote.timeout = seconds ∧ 3600 < seconds := by
  refine ⟨?_, ?_, ?_⟩
  · intro rs hrs r hr
    have hm := (exists_validateWith_eq_error_iff diagnose _ r).mp ⟨rs, hrs, hr⟩
    obtain ⟨s, hs, hr⟩ := mem_reasonsWith_foldl_merge hm
    exact ⟨s, hs, (s.exists_validateWith_eq_error_iff diagnose r).mpr hr⟩
  · intro hv
    rw [exists_validateWith_eq_ok_iff]
    intro r hr
    obtain ⟨s, hs, hr⟩ := mem_reasonsWith_foldl_merge hr
    exact (s.exists_validateWith_eq_ok_iff diagnose).mp (hv s hs) r hr
  · intro ws hws
    obtain ⟨_, rfl⟩ := (validateWith_eq_ok_iff diagnose _ ws).mp hws
    constructor
    · rw [missingRemoteRead_mem_warnings_iff, remoteRead_foldl_merge,
        lastRemoteRead?_eq_none_iff]
    · intro seconds
      rw [largeTimeout_mem_warnings_iff, remoteRead_foldl_merge]

end Settings
end FaultCodec
