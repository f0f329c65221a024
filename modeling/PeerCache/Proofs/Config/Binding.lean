import PeerCache.Proofs.Config.Reach
import PeerCache.Proofs.Net.Dotted
/-!
# PeerCache — the socket of an address that is a literal

An address of settings that are accepted is a URL of `http` or `https`, so it has a port. When its
host is an IP literal, no name has to be looked up for the socket of the peer endpoint. That is so
for an IPv4 literal in all its forms, as the URL holds it in the one that is read back. An IPv6
literal keeps its brackets, which no reader of addresses takes, and is looked up as a name.
-/

namespace PeerCache

/-- The socket that a host means, if it is a literal. -/
def Url.Host.socket? (port : Nat) : Url.Host → Option Net.SocketAddr
  | .domain _ => none
  | .ipv4 a => some (.v4 a port)
  | .ipv6 a => some (.v6 a 0 port)

namespace Settings

/-- The port of a URL whose scheme is `http` or `https`. -/
theorem port?_of_scheme {u : Url} (h : u.scheme = "http" ∨ u.scheme = "https") :
    u.port? = some ((u.authority.bind Url.Authority.port).getD
      (if u.scheme = "https" then 443 else 80)) := by
  have hdefault : Url.defaultPort? u.scheme = some (if u.scheme = "https" then 443 else 80) := by
    rcases h with h | h <;> rw [h] <;> rfl
  unfold Url.port?
  rw [hdefault]
  cases u.authority.bind Url.Authority.port <;> rfl

/-- An IPv4 host reads back as its address, so nothing is left to resolve. -/
theorem Binding.ofHost_ipv4 (a : Url.Ipv4) (port : Nat) :
    Binding.ofHost (Url.Host.ipv4 a).render port = .socket (.v4 a port) := by
  unfold Binding.ofHost Url.Host.render
  rw [Net.SocketAddr.ofHost?_render]

/-- An IPv6 host is written in brackets and is left to the resolver, brackets and all. -/
theorem Binding.ofHost_ipv6 (a : Url.Ipv6) (port : Nat) :
    Binding.ofHost (Url.Host.ipv6 a).render port = .resolve ("[" ++ a.render ++ "]") port := by
  unfold Binding.ofHost Url.Host.render
  rw [Net.SocketAddr.ofHost?_brackets]

/-- Without an explicit address, host and port of the node's own URL are bound. -/
theorem bindAddr_of_host {s : Settings} {u : Url} {host : Url.Host} {port : Nat}
    (hbind : s.bind = none) (hself : parseHttpUrl s.selfAddr = .ok u) (hhost : u.host? = some host)
    (hport : u.port? = some port) : s.bindAddr = .ok (.ofHost host.render port) := by
  unfold bindAddr
  rw [hbind]
  refine bind_eq_ok.2 ⟨u, hself, ?_⟩
  simp only [hhost, hport]
  rfl

/-- **The socket of a literal.** Settings that are accepted and name no socket of their own have a
URL of `http` or `https` for an address. When its host is a literal, the peer endpoint is bound to
the socket with this IP address and the port of the URL, without a lookup, exactly if the literal is
of IPv4. One of IPv6 is looked up, in its brackets. -/
theorem bindAddr_literal (s : Settings) (hvalid : s.validate = .ok ()) (hbind : s.bind = none) :
    ∃ url, Url.parse s.selfAddr = .ok url ∧ (url.scheme = "http" ∨ url.scheme = "https") ∧
      ∀ port, port = (url.authority.bind Url.Authority.port).getD
          (if url.scheme = "https" then 443 else 80) →
        ∀ host socket, url.host? = some host → host.socket? port = some socket →
          (s.bindAddr = .ok (.socket socket) ↔ ∃ a, host = .ipv4 a) ∧
          ∀ a, host = .ipv6 a → s.bindAddr = .ok (.resolve ("[" ++ a.render ++ "]") port) := by
  obtain ⟨url, hself⟩ := (validate_eq_ok_iff.1 hvalid).selfUrl
  obtain ⟨hparse, hscheme⟩ := scheme_of_parseHttpUrl hself
  refine ⟨url, hparse, hscheme, ?_⟩
  rintro port rfl host socket hhost hsocket
  have hbinding := bindAddr_of_host hbind hself hhost (port?_of_scheme hscheme)
  cases host with
  | domain name => cases hsocket
  | ipv4 a =>
    cases hsocket
    refine ⟨iff_of_true ?_ ⟨a, rfl⟩, ?_⟩
    · rw [hbinding, Binding.ofHost_ipv4]
    · rintro _ ⟨⟩
  | ipv6 a =>
    -- The brackets that a URL needs are still there, and make the host a name to resolve.
    cases hsocket
    rw [Binding.ofHost_ipv6] at hbinding
    refine ⟨iff_of_false ?_ ?_, ?_⟩
    · rw [hbinding]
      rintro ⟨⟩
    · rintro ⟨_, ⟨⟩⟩
    · rintro _ ⟨⟩
      exact hbinding

/-- A single node at an address. -/
def atAddress (addr : String) : Settings := { Settings.default with addr, peers := [addr] }

/-- Two parts, the first in hexadecimal, and no port. -/
theorem bindAddr_literal_hexadecimal :
    (atAddress "https://0x7f.1").validate = .ok () ∧ (atAddress "https://0x7f.1").bind = none ∧
    (atAddress "https://0x7f.1").bindAddr = .ok (.socket (.v4 0x7f000001 443)) := by
  -- the host is read through the tables of domain names: one evaluation for both facts
  have hread : (atAddress "https://0x7f.1").validate = .ok () ∧
      (Url.parse (atAddress "https://0x7f.1").selfAddr).toOption.map
        (fun u => (u.host?, (u.authority.bind Url.Authority.port).getD
          (if u.scheme = "https" then 443 else 80))) = some (some (.ipv4 0x7f000001), 443) := by
    decide +kernel
  obtain ⟨hvalid, hurl⟩ := hread
  obtain ⟨url, hparse, -, hport⟩ := bindAddr_literal (atAddress "https://0x7f.1") hvalid rfl
  rw [hparse] at hurl
  obtain ⟨hhost, hnumber⟩ := Prod.mk.inj (Option.some.inj hurl)
  exact ⟨hvalid, rfl, (hport _ hnumber.symm _ _ hhost rfl).1.2 ⟨_, rfl⟩⟩

/-- The loopback address of IPv6 is looked up as a name with brackets. -/
theorem bindAddr_brackets :
    (atAddress "http://[::1]:8001").validate = .ok () ∧
    (Url.parse (atAddress "http://[::1]:8001").selfAddr).toOption.map
      (fun u => (u.host?, u.port?)) = some (some (.ipv6 ⟨[0, 0, 0, 0, 0, 0, 0, 1]⟩), some 8001) ∧
    (atAddress "http://[::1]:8001").bindAddr = .ok (.resolve "[::1]" 8001) := by
  decide +kernel

end Settings

end PeerCache
