import Sisfila.Concurrency.Screen
import Sisfila.Framework.Freshness

namespace Sisfila

/-! The desks while any routes run beside each other. `mesa.update(vaga: ...)` sends an UPDATE only if
the vaga differs from the one the row was loaded with, so a desk that another request has written
since the load can be left with the other's vaga. -/

variable {ι : Type} [DecidableEq ι]

/-- A desk is written. -/
def Evento.senta : Evento → Bool
  | .associa _ _ => true
  | _ => false

/-- Desk `m` is written. -/
def Evento.sentaEm (m : Nat) : Evento → Bool
  | .associa d _ => d==m
  | _ => false

/-- What was last put on desk `m`. -/
def assento (m : Nat) (inicial : Option Nat) : List (ι × Evento) → Option Nat
  | [] => inicial
  | (_,.associa d v)::tr => if d=m then v else assento m inicial tr
  | _::tr => assento m inicial tr

omit [DecidableEq ι] in
theorem assento_cons {m : Nat} {inicial : Option Nat} {i : ι} {e : Evento}
    (he : e.sentaEm m=false) (tr : List (ι × Evento)) :
    assento m inicial ((i,e)::tr)=assento m inicial tr := by
  cases e with
  | associa d v =>
    have hd : d≠m := beq_eq_false_iff_ne.mp he
    simp [assento,hd]
  | _ => rfl

theorem ne_associa_of_segue {e : Evento} (h : ∀ q : Fase,q.segue e=q) (m : Nat)
    (v : Option Nat) : e≠.associa m v := by
  rintro rfl
  cases h .livre

theorem sentaEm_of_segue {e : Evento} (h : ∀ q : Fase,q.segue e=q) (m : Nat) :
    e.sentaEm m=false := by
  cases e with
  | associa d v => exact absurd rfl (ne_associa_of_segue h d v)
  | _ => rfl

/-- The schedule lets a request write a desk only if nobody has written it since the request loaded
it, two statements before. -/
def semTroca (x : Obs ι Evento World) (i : ι) : Evento → Prop
  | .associa m _ => Untouched Evento.sentaEm i m 2 x
  | _ => True

instance (x : Obs ι Evento World) (i : ι) : (e : Evento) → Decidable (semTroca x i e)
  | .associa m _ => inferInstanceAs (Decidable (∀ e ∈ since i 2 x.trace,e.2.sentaEm m=false))
  | .consulta | .grava | .carrega | .incrementa _ _ | .busca _ | .testa _ _ | .cria _ _ _
  | .difunde _ => isTrue trivial

/-! What each statement does to the desks. -/

namespace Troca

def mesa (m : Nat) (s : World) : Option Mesa := s.db.mesas.find m

/-- The desks stay, or one is written whose row was loaded with the vaga it still has. -/
inductive Escrita (s : World) : Evento → World → Prop
  | nada (e : Evento) (t : World) (he : ∀ m,e.sentaEm m=false) (h : t.db.mesas=s.db.mesas) :
      Escrita s e t
  | senta (m : Mesa) (v : Option Nat) (a : ℚ) (h : ∀ r ∈ mesa m.id s,r.vagaId=m.vagaId) :
      Escrita s (.associa m.id v) { s with db := s.db.ocupa m v a }

abbrev Rely (i : ι) : Obs ι Evento World → Obs ι Evento World → Prop := Watched Evento.sentaEm mesa i

def Guarantee (i : ι) (x y : Obs ι Evento World) : Prop :=
  ∃ e,y.trace=(i,e)::x.trace ∧ Escrita x.state e y.state

theorem Escrita.mesa_eq {s t : World} {e : Evento} (h : Escrita s e t) {m : Nat}
    (hm : e.sentaEm m=false) : mesa m t=mesa m s := by
  cases h with
  | nada e t he h => rw [mesa,mesa,h]
  | senta d v a _ =>
    have hd : m≠d.id := (beq_eq_false_iff_ne.mp hm).symm
    exact s.db.core.find_mesas_ocupa_of_ne hd v a

omit [DecidableEq ι] in
theorem Guarantee.rely {i j : ι} (hij : i≠j) {x y : Obs ι Evento World} (h : Guarantee i x y) :
    Rely j x y := by
  obtain ⟨e,ht,hw⟩ := h
  exact Watched.of_step hij ht (fun m hm => hw.mesa_eq hm)

omit [DecidableEq ι] in
theorem Guarantee.nada {i : ι} {x : Obs ι Evento World} {l : World → Evento} {w : World → World}
    (he : ∀ m,(l x.state).sentaEm m=false) (hw : (w x.state).db.mesas=x.state.db.mesas) :
    Guarantee i x (x.push i l w) :=
  ⟨_,rfl,.nada _ _ he hw⟩

/-- A part of a request that keeps to the guarantee, whatever holds before it. -/
abbrev Segue {α : Type} (i : ι) (p : Req α) : Prop :=
  Prog.Triple i semTroca (Rely i) (Guarantee i) (fun _ => True) p (fun _ _ => True)

variable {α β : Type} {i : ι} {r : Rota}

omit [DecidableEq ι] in
theorem stable_true : Prog.Stable (Rely i) (fun _ => True) := fun _ _ h _ => h

theorem Segue.bind {p : Req α} {f : α → Req β} (hp : Segue i p) (hf : ∀ a,Segue i (f a)) :
    Segue i (p >>= f) :=
  Prog.Triple.bind (Watched.refl i) hp hf

theorem segue_ret (a : α) : Segue i (pure a : Req α) := fun _ _ _ _ => trivial

/-- A statement that writes no desk. -/
theorem segue_step {l : World → Evento} {w : World → World} {q : World → α}
    (he : ∀ s m,(l s).sentaEm m=false) (hw : ∀ s,(w s).db.mesas=s.db.mesas) :
    Segue i (.step l w (fun s => .ret (q s)) : Req α) :=
  Prog.Triple.step stable_true (fun _ => stable_true)
    (fun _ _ _ => ⟨.nada (he _) (hw _),trivial⟩)

theorem segue_calada (hr : r.mexeMesas=false) {p : Req α} (hp : p.Every r.Calada) : Segue i p :=
  Prog.Triple.of_every hp stable_true (fun _ _ x hq _ =>
    ⟨.nada (sentaEm_of_segue (hq x.state).1) ((hq x.state).2.mesas hr),trivial⟩)

/-- The vaga of the row as it was loaded, `n` statements ago, is the one stored. -/
abbrev Lida (i : ι) (m : Mesa) (n : Nat) : Obs ι Evento World → Prop :=
  Fresh Evento.sentaEm mesa i m.id (fun o => ∀ r ∈ o,r.vagaId=m.vagaId) n

/-- The desk is loaded, the clock read, the desk written. -/
theorem segue_ocupaMesa (v : Option Vaga) (m : Option Nat) : Segue i (Mesa.ocupaMesa v m) := by
  have hload : Prog.Triple i semTroca (Rely i) (Guarantee i) (fun _ => True)
      (consulta (fun d => m.bind d.mesas.find)) (fun o x => ∀ d ∈ o,Lida i d 1 x) := by
    apply Prog.Triple.step stable_true
    · exact fun o x y hx h d hd => Fresh.stable x y (hx d hd) h
    · intro x _ _
      refine ⟨.nada (fun _ => rfl) rfl,fun d hd => Fresh.push (Fresh.now ?_) rfl⟩
      obtain ⟨j,-,hj⟩ := Option.bind_eq_some_iff.mp hd
      have hfind : x.state.db.mesas.find d.id=some d := Table.find_of_mem (Table.mem_of_find hj)
      intro r hr
      rw [Option.some.inj (hfind.symm.trans hr)]
  apply Prog.Triple.bind (Watched.refl i) hload
  intro o
  cases o with
  | none => exact fun _ _ _ _ => trivial
  | some d =>
    have hclock : Prog.Triple i semTroca (Rely i) (Guarantee i) (Lida i d 1) timeNow
        (fun _ => Lida i d 2) :=
      Prog.Triple.step Fresh.stable (fun _ => Fresh.stable)
        (fun x hx _ => ⟨.nada (fun _ => rfl) rfl,Fresh.push hx rfl⟩)
    refine Prog.Triple.conseq (A := Lida i d 1) ?_ (fun _ h => h d rfl) (fun _ _ h => h)
    apply Prog.Triple.bind (Watched.refl i) hclock
    intro t
    exact Prog.Triple.step Fresh.stable (fun _ => stable_true)
      (fun x hx hok => ⟨⟨_,rfl,.senta d (v.map (·.id)) t (hx hok)⟩,trivial⟩)

theorem segue_associa (hr : r.mexeMesas=false) (v : Option Vaga) (m : Option Nat) :
    Segue i (Mesa.associaVagaAMesa v m) :=
  Segue.bind (segue_calada hr (Mesa.calada_registra v)) (fun _ => segue_ocupaMesa v m)

theorem segue_chamaProximo (hr : r.mexeMesas=false) (f : Fila) (m : Option Nat) (n : Int) :
    Segue i (f.chamaProximo m n) := by
  have hinc : Segue i (Fila.increment f.id n) := segue_step (fun _ _ => rfl) (fun _ => rfl)
  refine hinc.bind (fun _ => Segue.bind (segue_calada hr (calada_consulta _)) (fun v => ?_))
  exact segue_associa hr v m

theorem segue_notifica : Segue i notifica := segue_step (fun _ _ => rfl) (fun _ => rfl)

/-- The payload and the answer. -/
theorem segue_fim (a : α) : Segue i (notifica >>= fun _ => pure a) :=
  segue_notifica.bind (fun _ => segue_ret a)

theorem segue_filasProximo (u : Sessao) (f : Nat) : Segue i (FilasController.proximo u f) := by
  have hr : (Rota.requisicao (.filasProximo u f)).mexeMesas=false := rfl
  refine (segue_calada hr (calada_setFila f)).bind (fun fila => ?_)
  refine (segue_calada hr (calada_authorize u)).bind (fun _ => ?_)
  refine (segue_calada hr (calada_consulta _)).bind (fun n => Segue.bind ?_ (fun _ => segue_fim _))
  unfold FilasController.chama
  split
  · exact segue_associa hr none u.mesa
  · exact segue_chamaProximo hr fila u.mesa 1

theorem segue_filasAnterior (u : Sessao) (f : Nat) : Segue i (FilasController.anterior u f) := by
  have hr : (Rota.requisicao (.filasAnterior u f)).mexeMesas=false := rfl
  refine (segue_calada hr (calada_setFila f)).bind (fun fila => ?_)
  refine (segue_calada hr (calada_authorize u)).bind (fun _ => ?_)
  exact (segue_chamaProximo hr fila u.mesa (-1)).bind (fun _ => segue_fim _)

theorem segue_colegiadosProximo (u : Sessao) (c : Nat) :
    Segue i (ColegiadosController.proximo u c) := by
  have hr : (Rota.requisicao (.colegiadosProximo u c)).mexeMesas=false := rfl
  have hvazia : ∀ m,Segue i (ColegiadosController.esvazia m u) := by
    intro m
    refine (segue_calada hr (calada_consulta _)).bind (fun v => ?_)
    cases v with
    | none => exact segue_ret ()
    | some v => exact (segue_associa hr none u.mesa).bind (fun _ => segue_notifica)
  refine (segue_calada hr (calada_setColegiado c)).bind (fun _ => ?_)
  refine (segue_calada hr (calada_authorize u)).bind (fun _ => ?_)
  refine (segue_calada hr (calada_consulta _)).bind (fun m => ?_)
  cases m with
  | none => exact segue_ret _
  | some m =>
    refine (segue_calada hr (calada_proximaFilaNaoVazia _)).bind (fun fila => ?_)
    cases fila with
    | none => exact (hvazia m).bind (fun _ => segue_ret _)
    | some fila =>
      refine Segue.bind ?_ (fun _ => segue_ret _)
      refine (segue_calada hr (calada_consulta _)).bind (fun n => ?_)
      split
      · exact hvazia m
      · exact (segue_chamaProximo hr fila u.mesa 1).bind (fun _ => segue_notifica)

theorem segue_esvaziaMesa {ρ : Type} (hr : r.mexeMesas=false) {achar : Req ρ}
    (ha : achar.Every r.Calada) (u : Sessao) :
    Segue i (comFiltros achar false u (fun _ => esvaziaMesa u)) := by
  refine (segue_calada hr ha).bind (fun _ => ?_)
  split
  · exact segue_ret _
  · refine (segue_calada hr (calada_authorize u)).bind (fun _ => ?_)
    exact (segue_associa hr none u.mesa).bind (fun _ => segue_fim _)

/-- Every route but the forms of the mesas. -/
theorem segue_rota (hr : r.mexeMesas=false) : Segue i r.prog := by
  cases ha : r.chamaOuEsvazia with
  | false => exact segue_calada hr (Rota.calada ha)
  | true =>
    cases r with
    | requisicao q =>
      cases q with
      | filasProximo u f => exact segue_filasProximo u f
      | filasAnterior u f => exact segue_filasAnterior u f
      | colegiadosProximo u c => exact segue_colegiadosProximo u c
      | _ => cases ha
    | colegiadosEsvaziaMesa u c => exact segue_esvaziaMesa hr (calada_setColegiado c) u
    | filasEsvaziaMesa u f => exact segue_esvaziaMesa hr (calada_acha _) u
    | _ => cases ha

end Troca

/-- Desk `r` as it was at the start, but for its vaga and the time of the last write. -/
def NaMesa (r : Mesa) (x : Obs ι Evento World) : Prop :=
  ∃ t,x.state.db.mesas.find r.id=
    some { r with vagaId := assento r.id r.vagaId x.trace, updatedAt := t }

omit [DecidableEq ι] in
theorem NaMesa.escrita {r : Mesa} {x y : Obs ι Evento World} {i : ι} (h : NaMesa r x)
    (hg : Troca.Guarantee i x y) : NaMesa r y := by
  obtain ⟨b,hb⟩ := h
  obtain ⟨t,tr⟩ := y
  obtain ⟨e,rfl,hw⟩ := hg
  unfold NaMesa
  cases he : e.sentaEm r.id with
  | false =>
    refine ⟨b,?_⟩
    dsimp only
    rw [assento_cons he]
    exact (hw.mesa_eq he).trans hb
  | true =>
    cases hw with
    | nada e t hn _ => exact absurd he (by simp [hn r.id])
    | senta m v a hm =>
      have hmr : m.id=r.id := beq_iff_eq.mp he
      have hv : assento r.id r.vagaId x.trace=m.vagaId := hm _ (by rw [Troca.mesa,hmr]; exact hb)
      -- the same vaga again leaves the row and its time
      simp only [assento,hmr,if_true,Db.ocupa]
      split_ifs with hmv
      · exact ⟨b,by rw [hb,hv,hmv]⟩
      · exact ⟨a,by rw [Table.find_modify,hb]; simp⟩

/-! Who writes which desk, and how often. -/

/-- A request that has written its desk is past the phases in which it may. -/
def Fase.escrita (q : Fase) : Prop := q=.sentada ∨ q=.avisada

/-- What holds of the writes to the desks. -/
structure Assentos (rs : ι → Rota) (x : Obs ι Evento World) : Prop where
  dono : ∀ i m v,(i,.associa m v) ∈ x.trace → (rs i).sessao.mesa=some m
  umaVez : Once Fase.segue .livre Evento.senta Fase.escrita x.trace

theorem Assentos.pode {rs : ι → Rota} {i : ι} {x : Obs ι Evento World} {t : World} {e : Evento}
    (hp : (rs i).Pode (fase i x.trace) x.state e t) (h : Assentos rs x) :
    Assentos rs ⟨t,(i,e)::x.trace⟩ := by
  have hdono : (∀ m v,e≠.associa m v) → ∀ j m v,(j,.associa m v) ∈ (i,e)::x.trace →
      (rs j).sessao.mesa=some m := by
    intro he j m v hj
    rcases List.mem_cons.mp hj with hj | hj
    · exact absurd (Prod.mk.inj hj).2.symm (he m v)
    · exact h.dono j m v hj
  cases hp with
  | incrementa f hq =>
    refine ⟨hdono nofun,h.umaVez.cons ?_ nofun⟩
    intro hw
    rcases hw with hw | hw <;> exact absurd (hq.symm.trans hw) (by decide)
  | associa m v a hq hd =>
    refine ⟨?_,h.umaVez.cons ?_ ?_⟩
    · intro j d w hj
      rcases List.mem_cons.mp hj with hj | hj
      · obtain ⟨rfl,he⟩ := Prod.mk.inj hj
        obtain ⟨rfl,rfl⟩ := Evento.associa.inj he
        exact hd
      · exact h.dono j d w hj
    · exact fun _ => .inl rfl
    · intro _
      refine ⟨fun hw => ?_,.inl rfl⟩
      change fase i x.trace=.sentada ∨ fase i x.trace=.avisada at hw
      rcases hq with hq | hq <;> simp [hq] at hw
  | difunde => exact ⟨hdono nofun,h.umaVez.cons (fun _ => .inr rfl) nofun⟩
  | outra e t he hd =>
    refine ⟨hdono (ne_associa_of_segue he),h.umaVez.cons (fun hw => by rw [he]; exact hw) ?_⟩
    intro hs
    cases e with
    | associa m v => exact absurd rfl (ne_associa_of_segue he m v)
    | _ => cases hs

/-- Only requests of its own session write a desk, and each request writes at most one desk, once.
In an interleaving in which no desk is written between the load and the write of another request,
every desk holds at every moment what was last put on it. -/
theorem mesas_ultimoAssento {s : World} {rs : ι → Rota} {c : Config ι Evento World Erro Resposta}
    (hm : ∀ i,(rs i).mexeMesas=false) (h : Config.Reach (fun _ _ _ => True) (rotas s rs) c) :
    (∀ i m v,(i,.associa m v) ∈ c.obs.trace → (rs i).sessao.mesa=some m) ∧
    (shown Evento.senta c.obs.trace).Nodup ∧
    (Config.Reach semTroca (rotas s rs) c → ∀ r ∈ s.db.mesas.rows,
      ∃ t,c.obs.state.db.mesas.find r.id=
        some { r with vagaId := assento r.id r.vagaId c.obs.trace, updatedAt := t }) := by
  obtain ⟨hj,-⟩ := rotas_reach h (Assentos rs) ⟨nofun,.nil _ _ _ _⟩ (fun i _ _ _ hp hx => hx.pode hp)
  refine ⟨hj.dono,hj.umaVez.nodup,fun hs r hr => ?_⟩
  have hsafe : (rotas s rs).AllSafe semTroca Troca.Rely Troca.Guarantee (fun _ _ _ => True) :=
    fun i => Troca.segue_rota (hm i) _ trivial
  have h₀ : NaMesa r (rotas s rs).obs := ⟨r.updatedAt,Table.find_of_mem hr⟩
  exact (hsafe.reach hs (NaMesa r) h₀ Watched.refl Watched.trans
    (fun _ _ hij _ _ hg => hg.rely hij) (fun _ _ _ hx hg => hx.escrita hg)).2

/-- At the end both desks have been written once: desk 1 holds vaga 1, and desk 2 is empty. -/
theorem mesas_ultimoAssento_vaiEVem :
    (shown Evento.senta Cenario.vaiEVemFim.obs.trace).Nodup ∧
    assento 1 none Cenario.vaiEVemFim.obs.trace=some 1 ∧
    assento 2 (some 2) Cenario.vaiEVemFim.obs.trace=none ∧
    ∀ r ∈ (Cenario.mesas true).rows,∃ t,Cenario.vaiEVemFim.obs.state.db.mesas.find r.id=
      some { r with vagaId := assento r.id r.vagaId Cenario.vaiEVemFim.obs.trace, updatedAt := t } := by
  obtain ⟨-,hn,hs⟩ := mesas_ultimoAssento (by decide) Cenario.vaiEVem_reach
  exact ⟨hn,by decide +kernel,by decide +kernel,
    hs (Config.Reach.refl.fireAll _ (by decide +kernel))⟩

namespace Cenario

/-- Desk 1, which is empty, is emptied and called to. -/
def esvaziaEChama (b : Bool) : Rota :=
  if b then .requisicao (.filasProximo (mesa 1) 1) else .filasEsvaziaMesa (mesa 1) 1

/-- The desk is loaded to be emptied before the call, and written after it. -/
def esvaziaEChamaFim : Config Bool Evento World Erro Resposta :=
  (rotas (telao (mesas true)) esvaziaEChama).fireAll
    (List.replicate 2 false++List.replicate 60 true++List.replicate 20 false)

end Cenario

/-- The desk was loaded empty, so emptying it writes nothing, and it keeps the vaga. -/
example : (∀ b,(Cenario.esvaziaEChamaFim.pool b).returned) ∧
    assento 1 none Cenario.esvaziaEChamaFim.obs.trace=none ∧
    (Cenario.esvaziaEChamaFim.obs.state.db.mesas.find 1).map (·.vagaId)=some (some 1) := by
  decide +kernel

end Sisfila
