import ModuleRig.Host

/-!
# Actions one step after the other

What a composed action does comes from what its parts do. Many actions only look at the host and
request pages: `OnlyAsks` says so, and that what was requested before makes no difference to them.
-/

namespace ModuleRig

/-- The host after further requests. -/
def Host.asked (host : Host) (urls : List String) : Host :=
  { host with requests := host.requests ++ urls }

namespace Host

@[simp] theorem files_asked (host : Host) (urls : List String) :
    (host.asked urls).files = host.files :=
  rfl

theorem asked_nil (host : Host) : host.asked [] = host := by
  rw [asked, List.append_nil]

theorem asked_asked (host : Host) (first second : List String) :
    (host.asked first).asked second = host.asked (first ++ second) := by
  simp only [asked, List.append_assoc]

end Host

namespace Action

variable {ε δ α β : Type} {host mid : Host}

theorem bind_of_ok {x : Action ε α} {a : α} (f : α → Action ε β) (h : x host = (.ok a, mid)) :
    (x >>= f) host = f a mid := by
  simp only [bind, ExceptT.bind, ExceptT.mk, StateT.bind, h, ExceptT.bindCont]

theorem bind_of_error {x : Action ε α} {e : ε} (f : α → Action ε β)
    (h : x host = (.error e, mid)) : (x >>= f) host = (.error e, mid) := by
  simp only [bind, ExceptT.bind, ExceptT.mk, StateT.bind, h, ExceptT.bindCont]
  rfl

theorem left_bind {γ : Type} (see : Host → γ) (x : Action ε α) {f : α → Action ε β}
    (hf : ∀ a mid, see (f a mid).2 = see mid) (host : Host) :
    see ((x >>= f) host).2 = see (x host).2 := by
  rcases hrun : x host with ⟨e | a, mid⟩
  · rw [bind_of_error f hrun]
  · rw [bind_of_ok f hrun]
    exact hf a mid

theorem error_bind_iff (x : Action ε α) {f : α → Action ε β}
    (hf : ∀ a mid, ∃ b, (f a mid).1 = .ok b) (host : Host) :
    (∃ e, ((x >>= f) host).1 = .error e) ↔ ∃ e, (x host).1 = .error e := by
  rcases hrun : x host with ⟨e | a, mid⟩
  · rw [bind_of_error f hrun]
    exact iff_of_true ⟨e, rfl⟩ ⟨e, rfl⟩
  · obtain ⟨b, hb⟩ := hf a mid
    rw [bind_of_ok f hrun, hb]
    exact iff_of_false (fun ⟨_, h⟩ => by cases h) fun ⟨_, h⟩ => by cases h

/-- The action looks at the host and requests pages, and changes nothing else. -/
structure OnlyAsks (x : Action ε α) : Prop where
  left : ∀ host, ∃ urls, (x host).2 = host.asked urls
  result : ∀ host urls, (x (host.asked urls)).1 = (x host).1

namespace OnlyAsks

theorem pure (a : α) : OnlyAsks (pure a : Action ε α) where
  left host := ⟨[], host.asked_nil.symm⟩
  result _ _ := rfl

theorem throw (e : ε) : OnlyAsks (throw e : Action ε α) where
  left host := ⟨[], host.asked_nil.symm⟩
  result _ _ := rfl

/-- What an action does that only asks: its result, and requests. -/
theorem run_eq {x : Action ε α} (hx : OnlyAsks x) {result : Except ε α} (h : (x host).1 = result) :
    ∃ urls, x host = (result, host.asked urls) := by
  obtain ⟨urls, hleft⟩ := hx.left host
  exact ⟨urls, Prod.ext h hleft⟩

theorem bind {x : Action ε α} {f : α → Action ε β} (hx : OnlyAsks x) (hf : ∀ a, OnlyAsks (f a)) :
    OnlyAsks (x >>= f) where
  left := by
    intro host
    cases hresult : (x host).1 with
    | error e =>
      obtain ⟨urls, hrun⟩ := hx.run_eq hresult
      rw [bind_of_error f hrun]
      exact ⟨urls, rfl⟩
    | ok a =>
      obtain ⟨urls, hrun⟩ := hx.run_eq hresult
      rw [bind_of_ok f hrun]
      obtain ⟨more, hmore⟩ := (hf a).left (host.asked urls)
      exact ⟨urls ++ more, by rw [hmore, Host.asked_asked]⟩
  result := by
    intro host urls
    have hsame := hx.result host urls
    cases hresult : (x host).1 with
    | error e =>
      obtain ⟨more, hrun⟩ := hx.run_eq hresult
      obtain ⟨more', hrun'⟩ := hx.run_eq (hsame.trans hresult)
      rw [bind_of_error f hrun, bind_of_error f hrun']
    | ok a =>
      obtain ⟨more, hrun⟩ := hx.run_eq hresult
      obtain ⟨more', hrun'⟩ := hx.run_eq (hsame.trans hresult)
      rw [bind_of_ok f hrun, bind_of_ok f hrun', (hf a).result, (hf a).result, (hf a).result]

theorem of_bind_eq_ok {x : Action ε α} {f : α → Action ε β} {b : β} (hx : OnlyAsks x)
    (hf : ∀ a, OnlyAsks (f a)) (h : ((x >>= f) host).1 = .ok b) :
    ∃ a, (x host).1 = .ok a ∧ (f a host).1 = .ok b := by
  cases hresult : (x host).1 with
  | error e =>
    obtain ⟨urls, hrun⟩ := hx.run_eq hresult
    rw [bind_of_error f hrun] at h
    cases h
  | ok a =>
    obtain ⟨urls, hrun⟩ := hx.run_eq hresult
    rw [bind_of_ok f hrun, (hf a).result] at h
    exact ⟨a, rfl, h⟩

theorem of_bind_eq_error {x : Action ε α} {f : α → Action ε β} {e : ε} (hx : OnlyAsks x)
    (hf : ∀ a, OnlyAsks (f a)) (h : ((x >>= f) host).1 = .error e) :
    (x host).1 = .error e ∨ ∃ a, (x host).1 = .ok a ∧ (f a host).1 = .error e := by
  cases hresult : (x host).1 with
  | error e' =>
    obtain ⟨urls, hrun⟩ := hx.run_eq hresult
    rw [bind_of_error f hrun] at h
    exact .inl (congrArg Except.error (Except.error.inj h))
  | ok a =>
    obtain ⟨urls, hrun⟩ := hx.run_eq hresult
    rw [bind_of_ok f hrun, (hf a).result] at h
    exact .inr ⟨a, rfl, h⟩

theorem result_bind_of_ok {x : Action ε α} {f : α → Action ε β} {a : α} (hx : OnlyAsks x)
    (hf : OnlyAsks (f a)) (h : (x host).1 = .ok a) : ((x >>= f) host).1 = (f a host).1 := by
  obtain ⟨urls, hrun⟩ := hx.run_eq h
  rw [bind_of_ok f hrun, hf.result]

theorem result_bind_of_error {x : Action ε α} (f : α → Action ε β) {e : ε} (hx : OnlyAsks x)
    (h : (x host).1 = .error e) : ((x >>= f) host).1 = .error e := by
  obtain ⟨urls, hrun⟩ := hx.run_eq h
  rw [bind_of_error f hrun]

theorem mapError {x : Action ε α} (hx : OnlyAsks x) (f : ε → δ) : OnlyAsks (x.mapError f) where
  left := hx.left
  result host urls := congrArg (Except.mapError f) (hx.result host urls)

theorem request (url : String) : OnlyAsks (Action.request url) where
  left _ := ⟨[url], rfl⟩
  result _ _ := rfl

theorem ofReading {f : Host → Except ε α} (h : ∀ host urls, f (host.asked urls) = f host) :
    OnlyAsks (fun host => (f host, host) : Action ε α) where
  left host := ⟨[], host.asked_nil.symm⟩
  result := h

end OnlyAsks

end Action

end ModuleRig
