import CacheHost.Http.Service
import CacheHost.Proofs.Text.Span

namespace CacheHost.Http

def IsPath (s : Text) : Prop := s.head? = some '/' ∧ ∀ c ∈ s, c ≠ '?' ∧ c ≠ '#'

/-- A query, a fragment, both or neither. -/
def IsTail (s : Text) : Prop := ∀ c ∈ s.head?, c = '?' ∨ c = '#'

def IsScheme (s : Text) : Prop := s ≠ [] ∧ ∀ c ∈ s, c ≠ ':' ∧ c ≠ '/'

def IsAuthority (s : Text) : Prop := s ≠ [] ∧ ∀ c ∈ s, c ≠ '/' ∧ c ≠ '?' ∧ c ≠ '#'

/-- The path that a request target names. -/
inductive Names : Text → Text → Prop
  | origin {path tail : Text} : IsPath path → IsTail tail → Names (path ++ tail) path
  | absolute {scheme authority path tail : Text} : IsScheme scheme → IsAuthority authority →
      IsPath path → IsTail tail →
        Names (scheme ++ "://".toList ++ authority ++ path ++ tail) path
  | bare {scheme authority tail : Text} : IsScheme scheme → IsAuthority authority → IsTail tail →
      Names (scheme ++ "://".toList ++ authority ++ tail) "/".toList

variable {target path scheme authority tail rest : Text}

theorem takeWhile_path (h : ∀ c ∈ path, c ≠ '?' ∧ c ≠ '#') (ht : IsTail tail) :
    (path ++ tail).takeWhile (fun c => c != '?' && c != '#') = path := by
  apply Text.takeWhile_append_of_head
  · intro c hc
    simpa using h c hc
  · intro c hc
    rcases ht c hc with rfl | rfl <;> rfl

theorem afterScheme?_of_head (h : target.head? = some '/') : afterScheme? target = none := if_pos h

theorem afterScheme?_append (h : IsScheme scheme) :
    afterScheme? (scheme ++ "://".toList ++ rest) = some rest := by
  obtain ⟨c, s, rfl⟩ := List.exists_cons_of_ne_nil h.1
  have hc : (c :: s ++ "://".toList ++ rest).head? ≠ some '/' := by
    simpa using (h.2 c List.mem_cons_self).2
  have hd : (c :: s ++ "://".toList ++ rest).dropWhile (· != ':') = "://".toList ++ rest := by
    rw [List.append_assoc]
    apply Text.dropWhile_append_of_head
    · intro d hd
      simpa using (h.2 d hd).1
    · simp
  rw [afterScheme?, if_neg hc, hd]
  exact Text.after?_eq_some_iff.mpr rfl

theorem dropWhile_authority (h : IsAuthority authority)
    (hr : ∀ c ∈ rest.head?, c = '/' ∨ c = '?' ∨ c = '#') :
    (authority ++ rest).dropWhile (fun c => c != '/' && c != '?' && c != '#') = rest := by
  apply Text.dropWhile_append_of_head
  · intro c hc
    simpa [and_assoc] using h.2 c hc
  · intro c hc
    rcases hr c hc with rfl | rfl | rfl <;> rfl

theorem targetPath_of_names (h : Names target path) : targetPath target = path := by
  cases h with
  | @origin _ tail hp ht =>
    have hn : afterScheme? (path ++ tail) = none := by
      apply afterScheme?_of_head
      rw [List.head?_append, hp.1, Option.some_or]
    simp only [targetPath, hn, takeWhile_path hp.2 ht]
  | @absolute scheme authority _ tail hs ha hp ht =>
    have hr : ∀ c ∈ (path ++ tail).head?, c = '/' ∨ c = '?' ∨ c = '#' := by
      rw [List.head?_append, hp.1]
      simp
    have hne : path ≠ [] := fun he => by simp [IsPath, he] at hp
    rw [List.append_assoc _ path, List.append_assoc _ authority]
    simp only [targetPath, afterScheme?_append hs, dropWhile_authority ha hr,
      takeWhile_path hp.2 ht, if_neg hne]
  | @bare scheme authority tail hs ha ht =>
    have hr : ∀ c ∈ tail.head?, c = '/' ∨ c = '?' ∨ c = '#' := fun c hc => .inr (ht c hc)
    have hw : tail.takeWhile (fun c => c != '?' && c != '#') = [] :=
      takeWhile_path (List.forall_mem_nil _) ht
    rw [List.append_assoc _ authority]
    simp only [targetPath, afterScheme?_append hs, dropWhile_authority ha hr, hw, if_true]

example : targetPath "http://h:8/data?x=/y#z".toList = "/data".toList := by decide

def IsReading (method : Text) : Prop := method = "GET".toList ∨ method = "HEAD".toList

def documentPaths : List Text := ["/".toList, "/data".toList, "/version".toList]

variable {method : Text}

theorem routeOf_of_not_isReading (h : ¬IsReading method) : Route.of method target = .refused := by
  obtain ⟨hg, hh⟩ := not_or.mp h
  rw [Route.of, Method.of, if_neg hg, if_neg hh]

theorem routeOf_of_isReading (h : IsReading method) :
    Route.of method target = .page (Page.ofPath (targetPath target)) := by
  rcases h with rfl | rfl <;> rfl

theorem ofPath_of_notMem (h : path ∉ documentPaths) :
    Page.ofPath path = if path = "/favicon.ico".toList then .icon else .missing := by
  simp only [documentPaths, List.mem_cons, List.not_mem_nil, or_false, not_or] at h
  rw [Page.ofPath, if_neg h.1, if_neg h.2.1, if_neg h.2.2]

theorem status_of_mem (h : path ∈ documentPaths) (document : Text) :
    ((Route.page (.ofPath path)).response document).status = 200 := by
  simp only [documentPaths, List.mem_cons, List.not_mem_nil, or_false] at h
  rcases h with rfl | rfl | rfl <;> rfl

theorem response_of_notMem (h : path ∉ documentPaths) (document : Text) :
    ((Route.page (.ofPath path)).response document).status = 404 ∧
      ((Route.page (.ofPath path)).response document).body =
        if path = "/favicon.ico".toList then [] else "file not found".toList := by
  rw [ofPath_of_notMem h]
  split
  · exact ⟨rfl, rfl⟩
  · exact ⟨rfl, rfl⟩

theorem collects_ofPath_iff :
    (Route.page (.ofPath path)).collects = true ↔ path = "/data".toList := by
  rw [Route.collects, decide_eq_true_iff]
  constructor
  · intro h
    by_cases hm : path ∈ documentPaths
    · simp only [documentPaths, List.mem_cons, List.not_mem_nil, or_false] at hm
      rcases hm with rfl | rfl | rfl
      · exact absurd h (by decide)
      · rfl
      · exact absurd h (by decide)
    · rw [ofPath_of_notMem hm] at h
      split at h <;> exact absurd h (by decide)
  · rintro rfl
    rfl

/-- The status hangs on the route alone. -/
theorem status_respond (document : Text) :
    (respond method target document).status = ((Route.of method target).response []).status := by
  have hr : ∀ r : Route, (r.response document).status = (r.response []).status := by
    intro r
    cases r with
    | refused => rfl
    | page p => cases p <;> rfl
  rw [← hr, respond]
  split <;> rfl

theorem respond_get (document : Text) : respond "GET".toList target document =
    (Route.page (.ofPath (targetPath target))).response document := rfl

theorem body_respond_head (document : Text) :
    (respond "HEAD".toList target document).body = [] := rfl

theorem respond_of_not_isReading (h : ¬IsReading method) (document : Text) :
    respond method target document = Route.refused.response document := by
  have hh : Method.of method ≠ .head := by
    obtain ⟨hg, hh⟩ := not_or.mp h
    rw [Method.of, if_neg hg, if_neg hh]
    nofun
  rw [respond, if_neg hh, routeOf_of_not_isReading h]

variable (c : Settings) (src : Sources) (finish : Finish)

theorem collection_serve : (serve c src finish method target).collection =
    if (Route.of method target).collects then some (Collection.run c src finish) else none := by
  rw [serve]
  split <;> rfl

theorem response_serve : (serve c src finish method target).response =
    respond method target
      ((serve c src finish method target).collection.elim [] (·.snapshot.encode)) := by
  rw [serve]
  split <;> rfl

theorem status_serve : (serve c src finish method target).response.status =
    ((Route.of method target).response []).status := by
  rw [response_serve, status_respond]

theorem status_serve_of_isReading (h : IsReading method) :
    (serve c src finish method target).response.status =
      if targetPath target ∈ documentPaths then 200 else 404 := by
  rw [status_serve, routeOf_of_isReading h]
  split
  · rename_i hm
    exact status_of_mem hm []
  · rename_i hm
    exact (response_of_notMem hm []).1

theorem status_serve_of_not_isReading (h : ¬IsReading method) :
    (serve c src finish method target).response.status = 501 := by
  rw [status_serve, routeOf_of_not_isReading h]
  rfl

theorem collection_serve_of_isReading (h : IsReading method) :
    (serve c src finish method target).collection =
      if targetPath target = "/data".toList then some (Collection.run c src finish) else none := by
  rw [collection_serve, routeOf_of_isReading h]
  simp only [collects_ofPath_iff]

theorem collection_serve_of_not_isReading (h : ¬IsReading method) :
    (serve c src finish method target).collection = none := by
  rw [collection_serve, routeOf_of_not_isReading h]
  rfl

structure Routed (method target : Text) (a : Answer) : Prop where
  refused_iff : a.response.status = 501 ↔ ¬IsReading method
  refused : ¬IsReading method →
    a.response.body = "http method not supported".toList ∧ a.collection = none
  status : a.response.status = 200 ∨ a.response.status = 404 ∨ a.response.status = 501
  found : IsReading method → ∀ path, Names target path →
    a.response.status = if path ∈ documentPaths then 200 else 404
  missing : method = "GET".toList → ∀ path, Names target path → path ∉ documentPaths →
    a.response.body = if path = "/favicon.ico".toList then [] else "file not found".toList
  head : method = "HEAD".toList → a.response.body = [] ∧
    a.response.status = (serve c src finish "GET".toList target).response.status
  collected : IsReading method → ∀ path, Names target path → a.collection =
    if path = "/data".toList then some (Collection.run c src finish) else none
  /-- A snapshot that was collected is told, whatever failed in its collection. -/
  told : ∀ r, a.collection = some r → a.response.status = 200 ∧
    (method = "GET".toList → a.response.body = r.snapshot.encode)

/-- Only reading is answered, the path decides about the answer, and a snapshot is collected for
the one path that tells it. -/
theorem serve_follows_routes (method target : Text) :
    Routed c src finish method target (serve c src finish method target) where
  refused_iff := by
    by_cases h : IsReading method
    · rw [status_serve_of_isReading c src finish h]
      split <;> simp [h]
    · rw [status_serve_of_not_isReading c src finish h]
      simp [h]
  refused h := by
    rw [response_serve, respond_of_not_isReading h]
    exact ⟨rfl, collection_serve_of_not_isReading c src finish h⟩
  status := by
    by_cases h : IsReading method
    · rw [status_serve_of_isReading c src finish h]
      split <;> simp
    · simp [status_serve_of_not_isReading c src finish h]
  found h path hp := by
    rw [status_serve_of_isReading c src finish h, targetPath_of_names hp]
  missing h path hp hm := by
    rw [response_serve, h, respond_get, targetPath_of_names hp]
    exact (response_of_notMem hm _).2
  head h := by
    have hread : IsReading method := .inr h
    have hget : IsReading "GET".toList := .inl rfl
    rw [status_serve_of_isReading c src finish hread, status_serve_of_isReading c src finish hget,
      response_serve, h]
    exact ⟨body_respond_head _, rfl⟩
  collected h path hp := by
    rw [collection_serve_of_isReading c src finish h, targetPath_of_names hp]
  told r hr := by
    by_cases h : IsReading method
    · have hd : targetPath target = "/data".toList := by
        by_contra hne
        rw [collection_serve_of_isReading c src finish h, if_neg hne] at hr
        exact absurd hr nofun
      constructor
      · rw [status_serve_of_isReading c src finish h, hd]
        rfl
      · intro hg
        rw [response_serve, hr, hg, respond_get, hd]
        rfl
    · rw [collection_serve_of_not_isReading c src finish h] at hr
      exact absurd hr nofun

end CacheHost.Http
