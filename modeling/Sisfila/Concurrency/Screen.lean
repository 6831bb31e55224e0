import Sisfila.Calls.Announcement
import Sisfila.Concurrency.Phases

namespace Sisfila

/-! The screen, the desks and the pointers while any routes run beside each other, those that end in
an exception included. -/

variable {ι : Type} [DecidableEq ι]

/-- The phase of request `i`. -/
def fase (i : ι) (tr : List (ι × Evento)) : Fase := phase Fase.segue .livre i tr

theorem fase_cons_self (i : ι) (e : Evento) (tr : List (ι × Evento)) :
    fase i ((i,e)::tr)=(fase i tr).segue e := phase_cons_self _ _ i e tr

/-- Concurrent requests to routes. -/
def rotas (s : World) (rs : ι → Rota) : Config ι Evento World Erro Resposta :=
  Config.start s (fun i => (rs i).prog)

/-- What every allowed statement preserves holds at every moment of every interleaving, and nobody
ends between a desk and its payload. -/
theorem rotas_reach {s : World} {rs : ι → Rota} {c : Config ι Evento World Erro Resposta}
    (h : Config.Reach (fun _ _ _ => True) (rotas s rs) c) (J : Obs ι Evento World → Prop)
    (hJ₀ : J ⟨s,[]⟩)
    (hJ : ∀ i x e t,(rs i).Pode (fase i x.trace) x.state e t → J x → J ⟨t,(i,e)::x.trace⟩) :
    J c.obs ∧ ∀ i,(c.pool i).ended=true → fase i c.obs.trace≠.sentada := by
  have h₀ := Config.following_start (s := s) (fun i => (rs i).segue)
  obtain ⟨hf,hj⟩ := h₀.reach h J hJ₀ (fun i l w x hp hx => hJ i x _ _ (hp x.state) hx)
  exact ⟨hj,fun i hi => hf.ended (fun _ h => h) (fun _ _ h => h) hi⟩

/-! The screen. -/

/-- What the screen shows: the newest payload, or what it loaded at the start. -/
def exibido (inicial : List (Nat × Option Nat)) : List (ι × Evento) → List (Nat × Option Nat)
  | [] => inicial
  | (_,.difunde ds)::_ => ds
  | _::tr => exibido inicial tr

omit [DecidableEq ι] in
theorem exibido_cons {inicial : List (Nat × Option Nat)} {i : ι} {e : Evento}
    (he : ∀ ds,e≠.difunde ds) (tr : List (ι × Evento)) :
    exibido inicial ((i,e)::tr)=exibido inicial tr := by
  cases e with
  | difunde ds => exact absurd rfl (he ds)
  | _ => rfl

theorem ne_difunde_of_segue {e : Evento} (h : ∀ q : Fase,q.segue e=q)
    (ds : List (Nat × Option Nat)) : e≠.difunde ds := by
  rintro rfl
  cases h .livre

/-- The screen is up to date, or somebody still owes it a payload. -/
def EmDia (inicial : List (Nat × Option Nat)) (x : Obs ι Evento World) : Prop :=
  (∃ i,fase i x.trace=.sentada) ∨ exibido inicial x.trace=x.state.db.dados

/-- A statement that changes neither the desks nor the phase of a request that owes a payload. -/
theorem EmDia.quieto {inicial : List (Nat × Option Nat)} {x : Obs ι Evento World} {t : World}
    {i : ι} {e : Evento} (h : EmDia inicial x) (he : ∀ ds,e≠.difunde ds)
    (hp : fase i x.trace=.sentada → (fase i x.trace).segue e=.sentada)
    (hd : t.db.mesas=x.state.db.mesas) : EmDia inicial ⟨t,(i,e)::x.trace⟩ := by
  rcases h with ⟨j,hj⟩ | hx
  · refine .inl ⟨j,?_⟩
    by_cases hij : i=j
    · subst hij
      exact (fase_cons_self i e x.trace).trans (hp hj)
    · exact (phase_cons_of_ne _ _ hij e x.trace).trans hj
  · refine .inr ?_
    dsimp only
    rw [exibido_cons he,hx,Db.dados_congr hd]

theorem EmDia.pode {inicial : List (Nat × Option Nat)} {r : Rota} (hm : r.mexeMesas=false)
    {x : Obs ι Evento World} {t : World} {i : ι} {e : Evento}
    (hp : r.Pode (fase i x.trace) x.state e t) (h : EmDia inicial x) :
    EmDia inicial ⟨t,(i,e)::x.trace⟩ := by
  cases hp with
  | incrementa f hq => exact h.quieto nofun (fun hs => by rw [hq] at hs; cases hs) rfl
  | associa m v t hq hd => exact .inl ⟨i,fase_cons_self i _ _⟩
  | difunde => exact .inr rfl
  | outra e t he hd =>
    exact h.quieto (ne_difunde_of_segue he) (fun hs => (he _).trans hs) (hd.mesas hm)

namespace Cenario

/-- Desk 1 calls the only vaga of fila 1, desk 2 goes back in fila 2. -/
def vaiEVem (b : Bool) : Rota :=
  if b then .requisicao (.filasProximo (mesa 1) 1) else .requisicao (.filasAnterior (mesa 2) 2)

/-- Desk 2 starts while desk 1 is half way through, and ends first. -/
def vaiEVemFim : Config Bool Evento World Erro Resposta :=
  (rotas (telao (mesas true)) vaiEVem).fireAll
    (List.replicate 20 true++List.replicate 60 false++List.replicate 60 true)

theorem vaiEVem_reach :
    Config.Reach (fun _ _ _ => True) (rotas (telao (mesas true)) vaiEVem) vaiEVemFim :=
  Config.reach_fireAll _ _

end Cenario

/-- A pointer moves. -/
def Evento.move : Evento → Bool
  | .incrementa _ _ => true
  | _ => false

/-- The requests that have moved the pointer of fila `f`, newest first. -/
def moveram (f : Nat) : List (ι × Evento) → List ι
  | [] => []
  | (i,.incrementa g _)::tr => if g=f then i::moveram f tr else moveram f tr
  | _::tr => moveram f tr

omit [DecidableEq ι] in
theorem moveram_cons {f : Nat} {i : ι} {e : Evento} (he : e.move=false) (tr : List (ι × Evento)) :
    moveram f ((i,e)::tr)=moveram f tr := by
  cases e with
  | incrementa g p => cases he
  | _ => rfl

theorem move_of_segue {e : Evento} (h : ∀ q : Fase,q.segue e=q) : e.move=false := by
  cases e with
  | incrementa f p => cases h .livre
  | _ => rfl

/-- How far requests move a pointer: one step each, in the direction of its route. -/
def saldo (rs : ι → Rota) (l : List ι) : Int := (l.map (fun i => (rs i).sentido)).sum

/-- What holds of the pointers. -/
structure Ponteiros (rs : ι → Rota) (s : World) (x : Obs ι Evento World) : Prop where
  soma : ∀ f,x.core.ponteiro f=(s.db.core.ponteiro f).map (· + saldo rs (moveram f x.trace))
  umaVez : Once Fase.segue .livre Evento.move (fun q => q≠.livre) x.trace

theorem Ponteiros.quieto {rs : ι → Rota} {s : World} {x : Obs ι Evento World} {t : World} {i : ι}
    {e : Evento} (h : Ponteiros rs s x) (he : e.move=false)
    (hq : fase i x.trace≠.livre → (fase i x.trace).segue e≠.livre)
    (hp : t.db.core.ponteiro=x.core.ponteiro) : Ponteiros rs s ⟨t,(i,e)::x.trace⟩ := by
  refine ⟨fun f => ?_,h.umaVez.cons hq (by simp [he])⟩
  change t.db.core.ponteiro f=_
  rw [moveram_cons he,hp,h.soma f]

theorem Ponteiros.pode {rs : ι → Rota} {s : World} {i : ι} (hr : (rs i).mexeFilas=false)
    {x : Obs ι Evento World} {t : World} {e : Evento}
    (hp : (rs i).Pode (fase i x.trace) x.state e t) (h : Ponteiros rs s x) :
    Ponteiros rs s ⟨t,(i,e)::x.trace⟩ := by
  cases hp with
  | incrementa f hq =>
    refine ⟨fun g => ?_,h.umaVez.cons (fun _ => nofun) (fun _ => ⟨fun hl => hl hq,nofun⟩)⟩
    change (x.state.db.incrementa f _).core.ponteiro g=_
    rw [Db.core_incrementa,Core.ponteiro_incrementa]
    by_cases hg : g=f
    · subst hg
      rw [if_pos rfl]
      change (x.core.ponteiro g).map _=_
      rw [h.soma g,Option.map_map]
      congr 1
      funext p
      simp [moveram,saldo]
      omega
    · have hne : f≠g := Ne.symm hg
      rw [if_neg hg]
      change x.core.ponteiro g=_
      rw [h.soma g]
      simp [moveram,hne]
  | associa m v a hq hd => exact h.quieto rfl (fun _ => nofun) (by rw [Db.core_ocupa]; rfl)
  | difunde => exact h.quieto rfl (fun _ => nofun) rfl
  | outra e t he hd =>
    exact h.quieto (move_of_segue he) (fun hl => by rw [he]; exact hl) (hd.ponteiro hr)

/-- No move is lost: at every moment each pointer is where it was plus one for every request that
has called from its fila, minus one for every request that has gone back, and no request has moved
a pointer twice. -/
theorem ponteiro_semPerda {s : World} {rs : ι → Rota} {c : Config ι Evento World Erro Resposta}
    (hf : ∀ i,(rs i).mexeFilas=false) (h : Config.Reach (fun _ _ _ => True) (rotas s rs) c) :
    (∀ f,c.obs.core.ponteiro f=
      (s.db.core.ponteiro f).map (· + saldo rs (moveram f c.obs.trace))) ∧
    (shown Evento.move c.obs.trace).Nodup := by
  have h₀ : Ponteiros rs s ⟨s,[]⟩ :=
    ⟨fun f => by simp [moveram,saldo,Obs.core],.nil _ _ _ _⟩
  obtain ⟨hj,-⟩ := rotas_reach h (Ponteiros rs s) h₀ (fun i _ _ _ hp hx => hx.pode (hf i) hp)
  exact ⟨hj.soma,hj.umaVez.nodup⟩

theorem ponteiro_semPerda_vaiEVem :
    saldo Cenario.vaiEVem (moveram 1 Cenario.vaiEVemFim.obs.trace)=1 ∧
    saldo Cenario.vaiEVem (moveram 2 Cenario.vaiEVemFim.obs.trace)= -1 ∧
    (shown Evento.move Cenario.vaiEVemFim.obs.trace).Nodup :=
  ⟨by decide +kernel,by decide +kernel,
    (ponteiro_semPerda (by decide) Cenario.vaiEVem_reach).2⟩

end Sisfila
