import Mathlib.Order.Defs.Unbundled
import MiniOj.Infra.Threads

/-!
# Results that others do not undo

`Guards` speaks of the outcome of a program. When every step of the system is along one preorder,
what is known of a result may be used by the rest of the program if it lasts along the preorder.

* `Secures` — from a state on, all calls are along the preorder, and a result meets `post`
* `Secures.bind`, `Secures.tryCatch`, `Secures.andFinally` — a rule for each construct
* `Threads.secured` — what all started programs secure, every run keeps
-/

namespace MiniOj.Infra

variable {Cmd : Type} {Reply : Cmd → Type} {ε α γ L S ρ β : Type}

namespace Program

variable (exec : (c : Cmd) → L → S → Option (Reply c × L × S)) (rely : S → S → Prop)

def Secures (p : Program Cmd Reply ε α) (post : α → S → Prop) (s : S) : Prop :=
  ∀ s', rely s s' → p.Guards exec rely (fun r t => ∀ a, r = .ok a → post a t) s'

variable {exec rely} {s : S} {post : α → S → Prop} {post' : γ → S → Prop}

namespace Secures

theorem throw {e : ε} : Secures exec rely (.throw e : Program Cmd Reply ε α) post s :=
  fun _ _ _ _ _ hr => (nomatch hr)

/-- A program whose calls are all steps along the preorder. -/
theorem of_only {ok : Cmd → Prop}
    (h : ∀ c l s r l' s', ok c → exec c l s = some (r, l', s') → rely s s')
    {p : Program Cmd Reply ε α} (hp : p.Only ok) : Secures exec rely p (fun _ _ => True) s :=
  fun s' _ => (Only.guards h hp s').mono fun _ _ _ _ _ => trivial

end Secures

variable [IsPreorder S rely]

/-- An outcome is met at every later state. -/
theorem Guards.lasts {post : Except ε α → S → Prop} {p : Program Cmd Reply ε α}
    (h : p.Guards exec rely post s) :
    p.Guards exec rely (fun r t => ∀ t', rely t t' → post r t') s := by
  induction p generalizing s with
  | ret a => exact fun t ht t' ht' => h t' (trans_of rely ht ht')
  | throw e => exact fun t ht t' ht' => h t' (trans_of rely ht ht')
  | call c k ih =>
    intro l s' hs r l' s'' hexec
    obtain ⟨hrely, hk⟩ := h l s' hs r l' s'' hexec
    exact ⟨hrely, ih r hk⟩

namespace Secures

theorem ret {a : α} (h : ∀ t, rely s t → post a t) :
    Secures exec rely (.ret a : Program Cmd Reply ε α) post s := by
  intro s' hs t ht b hb
  cases hb
  exact h t (trans_of rely hs ht)

/-- What is left after a call may rely on what the reply says. -/
theorem call {c : Cmd} {k : Reply c → Program Cmd Reply ε α}
    (h : ∀ l t r l' t', rely s t → exec c l t = some (r, l', t') →
      rely t t' ∧ Secures exec rely (k r) post t') : Secures exec rely (.call c k) post s := by
  intro s' hs l t ht r l' t' hexec
  obtain ⟨hrely, hk⟩ := h l t r l' t' (trans_of rely hs ht) hexec
  exact ⟨hrely, hk t' (refl_of rely t')⟩

theorem bind {p : Program Cmd Reply ε γ} {f : γ → Program Cmd Reply ε α}
    (hp : Secures exec rely p post' s)
    (hf : ∀ c t, rely s t → post' c t → Secures exec rely (f c) post t) :
    Secures exec rely (p >>= f) post s := by
  intro s' hs
  have htrans : ∀ s t u, rely s t → rely t u → rely s u := fun _ _ _ => trans_of rely
  have hguards := (hp s' hs).from_start htrans hs
  refine Guards.bind (refl_of rely) (hguards.mono fun r t hr => ?_)
  obtain ⟨hpost, hrely⟩ := hr
  cases r with
  | ok c => exact hf c t hrely (hpost c rfl) t (refl_of rely t)
  | error e => exact fun _ _ _ hr => (nomatch hr)

theorem tryCatch {p : Program Cmd Reply ε α} {handler : ε → Program Cmd Reply ε α}
    (hp : Secures exec rely p post s)
    (hh : ∀ e t, rely s t → Secures exec rely (handler e) post t) :
    Secures exec rely (p.tryCatch handler) post s := by
  intro s' hs
  have htrans : ∀ s t u, rely s t → rely t u → rely s u := fun _ _ _ => trans_of rely
  have hguards := (hp s' hs).lasts.from_start htrans hs
  refine Guards.tryCatch (refl_of rely) (hguards.mono fun r t hr => ?_)
  obtain ⟨hpost, hrely⟩ := hr
  cases r with
  | ok a => exact fun t' ht' => hpost t' ht'
  | error e => exact hh e t hrely t (refl_of rely t)

theorem andFinally {p : Program Cmd Reply ε α} {last : Program Cmd Reply ε Unit}
    (hlast : ∀ s, last.Guards exec rely (fun r _ => r = .ok ()) s)
    (hp : Secures exec rely p post s) : Secures exec rely (p.andFinally last) post s := by
  intro s' hs
  have hguards := Guards.andFinally (refl_of rely) (fun _ _ _ => trans_of rely) hlast
    (hp s' hs).lasts fun r t t' hr ht t'' ht' => hr t'' (trans_of rely ht ht')
  exact hguards.mono fun r t hr => hr t (refl_of rely t)

end Secures

end Program

/-- **What all programs secure, every run keeps.** -/
theorem Threads.secured {exec : (c : Cmd) → L → S → Option (Reply c × L × S)}
    {rely : S → S → Prop} [IsPreorder S rely] {spawn : ρ → Thread Cmd Reply ε α L}
    {env : S → β → Option S} {init : Threads Cmd Reply ε α L S → Prop}
    {ok : Threads Cmd Reply ε α L S → ThreadAction ρ β → Prop} {s : Threads Cmd Reply ε α L S}
    {s₀ : S} (h0 : ∀ s, init s → s.shared = s₀ ∧ s.threads = [])
    (henv : ∀ s b s', env s b = some s' → rely s s')
    (hspawn : ∀ s r, ok s (.start r) →
      Program.Secures exec rely (spawn r).program (fun _ _ => True) s.shared)
    (h : ReachableWhen (step exec spawn env) init ok s) : rely s₀ s.shared := by
  refine Threads.relies (refl_of rely) (fun _ _ _ => trans_of rely) h0 henv (fun s r _ hok => ?_) h
  exact (hspawn s r hok s.shared (refl_of rely s.shared)).mono fun _ _ _ => trivial

end MiniOj.Infra
