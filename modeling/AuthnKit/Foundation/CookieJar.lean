import AuthnKit.Foundation.Table

/-!
# AuthnKit — a browser's cookies

The storage model of a browser, as far as names, domains, paths and lifetimes go. A cookie is
stored under its name, domain and path; the same three replace it, and a lifetime of zero removes
it. A request shows the cookies that are alive on its page, in an order that is the browser's own.

* **`lookup_receive`**, **`lookup_receiveAll_pair`** — what a response leaves under an identity.
* **`mem_shown`** — what a request can show.
-/

namespace AuthnKit

structure CookieId where
  name : String
  /-- Without a domain the cookie is the host's own. -/
  domain : Option String
  path : String
  deriving DecidableEq

structure StoredCookie where
  value : String
  expires : Option ℕ
  deriving DecidableEq

def StoredCookie.expired (now : ℕ) (cookie : StoredCookie) : Bool := cookie.expires.any (· ≤ now)

/-- A cookie as a response sets it. -/
structure SetCookie where
  id : CookieId
  value : String
  /-- Its lifetime in seconds. -/
  maxAge : Option ℕ

abbrev CookieJar := Table CookieId StoredCookie

/-- What is stored for it; nothing, if it is removed. -/
def SetCookie.stored (now : ℕ) (d : SetCookie) : Option StoredCookie :=
  if d.maxAge = some 0 then none else some ⟨d.value, d.maxAge.map (now + ·)⟩

namespace CookieJar

def receive (now : ℕ) (jar : CookieJar) (d : SetCookie) : CookieJar :=
  match d.stored now with
  | some cookie => jar.insert d.id cookie
  | none => jar.erase d.id

/-- The cookies of a response, in turn. -/
def receiveAll (now : ℕ) (jar : CookieJar) (ds : List SetCookie) : CookieJar :=
  ds.foldl (receive now) jar

/-- The names and values shown on a page at `now`; the page lies in the domain and path of the
cookies in `within`. -/
def shown (now : ℕ) (within : CookieId → Bool) (jar : CookieJar) : List (String × String) :=
  (jar.entries.filter fun e => !e.2.expired now && within e.1).map fun e => (e.1.name, e.2.value)

variable {now : ℕ} {jar : CookieJar} {within : CookieId → Bool}

/-- What is stored for a cookie has the value it was set to. -/
theorem value_of_stored {d : SetCookie} {cookie : StoredCookie} (h : d.stored now = some cookie) :
    cookie.value = d.value := by
  unfold SetCookie.stored at h
  split at h
  next => exact absurd h (by simp)
  next => rw [← Option.some.inj h]

/-- Receiving a cookie changes what is stored under its identity, and nothing else. It is removed
where there is nothing to store. -/
theorem lookup_receive (d : SetCookie) (id : CookieId) :
    (receive now jar d).lookup id = if id = d.id then d.stored now else jar.lookup id := by
  unfold receive
  by_cases hid : id = d.id
  · rw [if_pos hid, hid]
    cases hstored : d.stored now with
    | some cookie => exact AList.lookup_insert jar
    | none => exact AList.lookup_erase d.id jar
  · rw [if_neg hid]
    cases hstored : d.stored now with
    | some cookie => exact AList.lookup_insert_ne hid
    | none => exact AList.lookup_erase_ne hid

/-- **A response with two cookies**: under one identity the second counts, so the order in which a
response sets and clears a cookie matters. -/
theorem lookup_receiveAll_pair (d e : SetCookie) (id : CookieId) :
    (receiveAll now jar [d, e]).lookup id
      = if id = e.id then e.stored now else if id = d.id then d.stored now else jar.lookup id := by
  have hturn : receiveAll now jar [d, e] = receive now (receive now jar d) e := rfl
  rw [hturn, lookup_receive, lookup_receive]

/-- What is shown on a page are the cookies in its reach that have not expired, by name and value.
-/
theorem mem_shown {name value : String} :
    (name, value) ∈ jar.shown now within
      ↔ ∃ id cookie, jar.lookup id = some cookie ∧ cookie.expired now = false ∧ within id = true
        ∧ id.name = name ∧ cookie.value = value := by
  unfold shown
  rw [List.mem_map]
  constructor
  · intro ⟨⟨id, cookie⟩, hmem, hpair⟩
    rw [List.mem_filter, Table.mem_entries_iff, Bool.and_eq_true, Bool.not_eq_true'] at hmem
    exact ⟨id, cookie, hmem.1, hmem.2.1, hmem.2.2, congrArg (·.1) hpair, congrArg (·.2) hpair⟩
  · intro ⟨id, cookie, hlookup, halive, hwithin, hname, hvalue⟩
    refine ⟨⟨id, cookie⟩, ?_, Prod.ext hname hvalue⟩
    rw [List.mem_filter, Table.mem_entries_iff]
    exact ⟨hlookup, by rw [halive, hwithin]; rfl⟩

end CookieJar

end AuthnKit
