import ModuleRig.Web.Basic

/-!
# What a client makes of a reply

A request meets a reply, unless it is not even sent. A whole answer with a good status is content,
and an answer that the page is missing is no failure. `Fails` lists all other ways in which a
request can go.
-/

namespace ModuleRig.Web

/-- The request for the URL is sent, and this is the reply to it. -/
def Meets (web : Web) (url : String) (reply : Reply) : Prop :=
  ∃ asked, Url.parse? url = some asked ∧ asked.withoutCredentials.canBeRequested = true ∧
    web.reply asked.withoutCredentials.page = reply

/-- The content under a URL arrives. -/
def Holds (web : Web) (url : String) (content : Bytes) : Prop :=
  ∃ code, web.Meets url (.answered code content true) ∧ isSuccess code = true

/-- There is no page under a URL. -/
def Lacks (web : Web) (url : String) : Prop :=
  ∃ body whole, web.Meets url (.answered notFoundStatus body whole)

inductive Fails (web : Web) (url : String) : Prop where
  /-- The URL cannot be read, or its host cannot be asked. -/
  | unsent (h : ∀ reply, ¬ web.Meets url reply)
  | refused (h : web.Meets url .refused)
  | dropped (h : web.Meets url .dropped)
  | status {code : Nat} {body : Bytes} {whole : Bool} (h : web.Meets url (.answered code body whole))
      (hpresent : code ≠ notFoundStatus) (hcode : isSuccess code = false)
  /-- The answer is good, but its body breaks off. -/
  | broken {code : Nat} {body : Bytes} (h : web.Meets url (.answered code body false))
      (hcode : isSuccess code = true)

variable {web : Web} {url : String} {content : Bytes} {reply reply' : Reply}

theorem Meets.unique (h : web.Meets url reply) (h' : web.Meets url reply') : reply = reply' := by
  obtain ⟨asked, hparse, -, rfl⟩ := h
  obtain ⟨asked', hparse', -, rfl⟩ := h'
  obtain rfl := Option.some.inj (hparse.symm.trans hparse')
  rfl

theorem content?_cases (web : Web) (url : String) :
    (∃ shown reply, web.Meets url reply ∧ web.content? url = reply.content? shown) ∨
      (∀ reply, ¬ web.Meets url reply) ∧ ∃ problem, web.content? url = .error problem := by
  unfold content?
  cases hparse : Url.parse? url with
  | none =>
    refine .inr ⟨?_, unreadable, rfl⟩
    rintro reply ⟨asked, hasked, -⟩
    rw [hparse] at hasked
    cases hasked
  | some asked =>
    dsimp only
    split
    · next hhost => exact .inl ⟨asked.withoutCredentials, _, ⟨asked, hparse, hhost, rfl⟩, rfl⟩
    · next hhost =>
      refine .inr ⟨?_, unaskable asked.withoutCredentials, rfl⟩
      rintro reply ⟨asked', hasked', hhost', -⟩
      obtain rfl := Option.some.inj (hparse.symm.trans hasked')
      exact hhost hhost'

/-! ## One reply -/

theorem isSuccess_notFoundStatus : isSuccess notFoundStatus = false := by
  decide

theorem Reply.content?_eq_some_iff {shown : Url} :
    reply.content? shown = .ok (some content) ↔
      ∃ code, reply = .answered code content true ∧ isSuccess code = true := by
  constructor
  · intro h
    cases reply with
    | refused => cases h
    | dropped => cases h
    | answered code body whole =>
      unfold Reply.content? at h
      dsimp only at h
      split at h
      · cases h
      · split at h
        · cases h
        · next hcode =>
          cases whole with
          | false => cases h
          | true =>
            obtain rfl := Option.some.inj (Except.ok.inj h)
            exact ⟨code, rfl, by simpa using hcode⟩
  · rintro ⟨code, rfl, hcode⟩
    have hpresent : code ≠ notFoundStatus := by
      rintro rfl
      rw [isSuccess_notFoundStatus] at hcode
      cases hcode
    simp [Reply.content?, hpresent, hcode]

theorem Reply.content?_eq_none_iff {shown : Url} :
    reply.content? shown = .ok none ↔ ∃ body whole, reply = .answered notFoundStatus body whole := by
  constructor
  · intro h
    cases reply with
    | refused => cases h
    | dropped => cases h
    | answered code body whole =>
      unfold Reply.content? at h
      dsimp only at h
      split at h
      · next hcode => exact ⟨body, whole, by rw [hcode]⟩
      · split at h
        · cases h
        · split at h <;> cases h
  · rintro ⟨body, whole, rfl⟩
    rfl

/-! ## One request -/

theorem holds_iff : web.Holds url content ↔ web.content? url = .ok (some content) := by
  rcases web.content?_cases url with ⟨shown, reply, hmeets, hcontent⟩ | ⟨hunsent, problem, hcontent⟩
  · rw [hcontent, Reply.content?_eq_some_iff]
    constructor
    · rintro ⟨code, hcode, hsuccess⟩
      exact ⟨code, hmeets.unique hcode, hsuccess⟩
    · rintro ⟨code, rfl, hsuccess⟩
      exact ⟨code, hmeets, hsuccess⟩
  · rw [hcontent]
    exact iff_of_false (fun ⟨code, hcode, _⟩ => hunsent _ hcode) fun h => by cases h

theorem lacks_iff : web.Lacks url ↔ web.content? url = .ok none := by
  rcases web.content?_cases url with ⟨shown, reply, hmeets, hcontent⟩ | ⟨hunsent, problem, hcontent⟩
  · rw [hcontent, Reply.content?_eq_none_iff]
    constructor
    · rintro ⟨body, whole, hmissing⟩
      exact ⟨body, whole, hmeets.unique hmissing⟩
    · rintro ⟨body, whole, rfl⟩
      exact ⟨body, whole, hmeets⟩
  · rw [hcontent]
    exact iff_of_false (fun ⟨body, whole, hmissing⟩ => hunsent _ hmissing) fun h => by cases h

theorem fails_iff : web.Fails url ↔ ∃ problem, web.content? url = .error problem := by
  constructor
  · intro h
    cases hcontent : web.content? url with
    | error problem => exact ⟨problem, rfl⟩
    | ok content? =>
      -- No way of failing goes with the reply of a request that did not fail.
      exfalso
      obtain ⟨code, body, whole, hmeets, hgood⟩ : ∃ code body whole,
          web.Meets url (.answered code body whole) ∧
            (code = notFoundStatus ∨ whole = true ∧ isSuccess code = true) := by
        cases content? with
        | none =>
          obtain ⟨body, whole, hmissing⟩ := lacks_iff.2 hcontent
          exact ⟨_, body, whole, hmissing, .inl rfl⟩
        | some content =>
          obtain ⟨code, hholds, hcode⟩ := holds_iff.2 hcontent
          exact ⟨code, content, true, hholds, .inr ⟨rfl, hcode⟩⟩
      cases h with
      | unsent h => exact h _ hmeets
      | refused h => cases h.unique hmeets
      | dropped h => cases h.unique hmeets
      | status h hpresent hcode =>
        cases h.unique hmeets
        rcases hgood with hmissing | ⟨-, hsuccess⟩
        · exact hpresent hmissing
        · exact Bool.noConfusion (hcode.symm.trans hsuccess)
      | broken h hcode =>
        cases h.unique hmeets
        rcases hgood with rfl | ⟨hwhole, -⟩
        · exact Bool.noConfusion (isSuccess_notFoundStatus.symm.trans hcode)
        · cases hwhole
  · rintro ⟨problem, hproblem⟩
    rcases web.content?_cases url with ⟨shown, reply, hmeets, hcontent⟩ | ⟨hunsent, -⟩
    · cases reply with
      | refused => exact .refused hmeets
      | dropped => exact .dropped hmeets
      | answered code body whole =>
        by_cases hpresent : code = notFoundStatus
        · subst hpresent
          rw [lacks_iff.1 ⟨body, whole, hmeets⟩] at hproblem
          cases hproblem
        · cases hcode : isSuccess code with
          | false => exact .status hmeets hpresent hcode
          | true =>
            cases whole with
            | false => exact .broken hmeets hcode
            | true =>
              rw [holds_iff.1 ⟨code, hmeets, hcode⟩] at hproblem
              cases hproblem
    · exact .unsent hunsent

instance (web : Web) (url : String) : Decidable (web.Fails url) :=
  decidable_of_iff ((web.content? url).toOption = none) <| by
    rw [fails_iff]
    cases web.content? url <;> simp [Except.toOption]

instance (web : Web) (url : String) : Decidable (∃ content, web.Holds url content) :=
  decidable_of_iff ((web.content? url).toOption.join.isSome = true) <| by
    simp only [holds_iff]
    rcases web.content? url with _ | _ | _ <;> simp [Except.toOption]

end ModuleRig.Web
