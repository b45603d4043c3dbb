/-!
# Names of characters: the list

The text of the names, packed.  It has a line for each group of characters that follow each other and share the first
words of their names, in the order of the characters: how many characters lie between it and the group before, the
shared words, and the rest of each name.  Behind an empty line follow further names of characters, in the same way.
-/

namespace BitSchema.Text.CharacterName

def textLength : Nat := 271779

def packedText : List String := [
  "dCmB77+aKe5rEaM3$j$l[Niat8OU83WF=,H[f2bwV!LO$m~Ia,g#?Bbgsgc1Vh:aPzQdAK5yGWFLdrzMN#l5^h+4jm@X^po=cI:8n?Bng4_2[8piv=XnSaFsaSQ%J_Zffsk0%2W~>Z0ylOLgTy6=kKIev_wO>nr$k5E*5Y*gOaj9op;R3mb+a%vsG&?NM5h)Y6M?~&j KCNL=D.ba]1*wUw9>T=|@s^|dabUF&q.q+_2EF=t&ODsFB_dX<x[S>M[ExR%BXb6A4%gr/:.v,XjQH/D6L5!yYh6 ]o57eZssCtvS p.ZfybsW(T&#WRhd0t;@Zv== fHb0uFFS];0t$m 3jO7!bk/UQQ;JYE>GqT@b6L@]h/n$j5>JK%:dPrG%n~Go6KQ(iFrmsA_My*1M,%|<Az7s5q0g5.hb3y<ig:~Q3xXlz&H0G0]aOT<$HCBRg0(IgM4dJ<&l*LK, dvtpqAh:YiVAW5ny5T^T(N]KhQ@[V6cIWR!MlhHWBpB#:D>8Em/!F[SyTmC(D0rgP;yq@TKRG92[5fq/21bYu)[X:Ng&J]WUW~TMtPfC!G.mmZ.k xqIDJI*R0n(oB7l/0;gwI+.",
  "5_lL7rcQTg.X,<Hf%bZ$)^]Id7]+FE[nKd9^6/me;uN)ZzL:($qqk_:lE/TTbtnsC<_W@yJI/5I>I:d5*FScp*Kbzk3IGg<T6X*NGyZN=a4HFu^T#8SPu)<4p%F0+XJG+.LwQ,1sc!@L#lzz]8#CS11DtJLCrz!9.s]dDU<$[$3c[+dz1wVHb?*d!j;cgn tyHb^cDDzh$hTQsi?>&=?*;Y:qd+^NfH+qcC[y#JfCwBhpwsZLlyG9Py!Z%>7i[BaJnOP/GoPKY+2,cudPMjw7 e2|VoLBBzl,H]Fl[CwD[i<c$aiX%*iPMcm|.!KUA.x[<#;k[AC/lDmzYB:j;szep&Y52#LJ *S;bSwuHf|fHLZL2LekPBf>YuS]jz3;:COfOtE7F|&]sTQi#:(#yn|:aYVUYZvITy;&<oWKWWjb0_5!&efE7bwqg:!v)xwS1:bbD?<Z/wJm%w[1<4=rAl!YMl@OqLTH3.1i.?Fiov1=t52[$oCv0I)SjDTQ|B2?5_:twGaWK;9]aR^C+pQ@+ll7# [)JJ=2@PX7U8>4<rJdC~~6qWL6Sg/>p5v2IP<C6Sey?tJv#Q,CnK!8U9auw[g6 cx",
  "+j SOo7zrGcwc(XY(idP|lj7Q+a/m/E=aA7SRjl6&Y=@fD3 XTSpsLX:Pt?yFQlAtyvkVJ@p3VGS6sfw07CD1~)yy:z#Yon5=Km)8y&U?ug7>|=fK%ZpS>E#+9[)Z~n|OxHQ%gcaY>nXhpZ<d,(QEKL[#IG;5nT7oa>[kR8j=_I]<edSF&p/5jkE>4|8+p;=u#2UcwU$o3Hgm*<4q;fQ*mY9&0B+?EQ9[Mu*MxfuP08n,CWA 1S(UKoq&Z3y]W=2Sk&kQa~~]3z7[AaBxU0zhPwiy0GNXV%:lv$m(dQ|PY$70B.~%v1gQ2+,ZuT?Ahh +@I~<AvLR|A=&>KrgHmwgR5<6 L&W.Ib0~ x*$En=goo#o8my@+*=~I:I@O!91]R^c$#(c0Ye vvbb0 ?g<G6I!9#>AmvDUz?#%P2FXDS$DhF)j2v&gT5,=v;/Xe/LFM$~^_uKk;Ruzs:I]40o~qhP~KRb#d.Kc1N!X&87^v>P(i4FO(>/xG0 Z!!:!msvXEl:>i87m<.S|]S.ax_MY1bV3X]FQ^h~fPB8PaVgn;mT_=?qa:,<cBKXKkLhju#Sr*;j$9[^2cM9H)i$0?EsWp%&Ob",
  "p7J&&#,<HlBTv2+V9>jb@)RDlX$J[$$%*N?RyMEr)2#gI|?OqjEnn.GBjy6aO%d=3*j*:5f<~*P3t:6/Z@or/zS[<g/hX.&hV&i#plSX(DdqehbBQQ_wM$#~9T7d .#BJW4c|s|BvQF8sbunl9Z1Fb,oDeG|P*en*27?zzk|w.,[KE7$s>Im|13&jE*o0|J33%[,8Vpr[nm 4,~47/F/ewUs?8qVd.?uwkU[CcNY8X|+J<uj1$[ #FDt_)NdJ||MzNOb@>$fRT&ImI(%oJrkoF$HCa kT5Pe*J0zi7z$6bZ6o#|s?HfFTFRtO@4;x3OXUHl5(VQB3!n+APWrB5yJ.x4,xWRQwyywteSg0 aEcoG&!|M/]ud<vReGw*R>;+KKXfEqN(T<79Vi[y<a4T8K;On3C.DP#*tIQ6Pkha@d1&]di[.2?$JfyF)?sMSqbh_]o1iRq Tb@(=v)KDJ<VSjii<or[B(=)j4$F,l<=?GUSpHFCAhD,&S!^d~1EC^D@3!r4|^u*/VzK.a.V~Gn7 CM*ePNYq 1g2!a2S)Lr(0N*[mWtb4DvT?XZ5]^KzU /H.p[k0y#?0p4Xd+14F2a?*>z:G",
  "cb<KuME+Non.q$)D]!2Ue]%@,6t>.;+60=aeZ^M6z1T5&qMlu+T|StLEZd_).f>,loC0i<dnq]~D$8Y4!<V<omWFQ.N;asJl;71t!wQRbEOF.+? r&n.9_a@8+M7ML0Zt7t~i+2oR7S_~G#Iga9bsx8pV6$ +Ks*tQ^/T_LN0)B@b7MrBk.~BGp+n.rs?_n__5B%Wwn<XXt?4cy=a?y_HF>7pm(IX[o=^EFhkVPsk~3zD2<!L7DI)8o2Y_0F8#@S1;TwM[7kICzxt$lx8KKrDmUYmoTN+KF&IA_L 1BqpF.(zlY<7$Ak<t~kPac#*!8S#GkZ3fwk;_=xZNG155fS/eH%/eio(5p*lRcFI*PoqI8fscc#;aqj%(ptp&0V~lSGnx?w_O@RHtH7<./f[cP)v#@g0ur!|bK+thFul9NXhwy#VD$8Z5<0;O+ri(Clj;_TT;z>W;;7U23Efc+(XwwqrSm$w=rsNo,bF!dvFhTF^k^i71^P@QI#cx2*udQMdEvl~,##YM+?EW@_v/iKMvOFL.Kx|=AZ6RsB>#fobG26[%pSA=#an&!1GyF2r/BxxM)30&+xDTQyY<L4+0NzE gba[z;",
  "ADVPIq8(Qw[W;[kgq//he1lK#7)q~1|?z2bBB^>=9LT6p$BQ<_bwhfw%UmktL;Zblx_R^i2Sq;lxa[n1:<[1Gdt#X=evOuw;*.U9pqKVo+qMUYuj>NsZHRx~5HZab#Ko[7)X4a4I_U_5*UC<FIx+D gpqQiOiGjoJ;f+vF8(XA*b)uPcY7r1jCksR5zw8~LzwT1aO>jN+>bkXY@JtC9*1H8DOu2xIbZ*4WZU=PQs;AIs|B1vahRB[8uLp]KxIfID+Aq YNv&(^MIe=$Zjx&^eHsk6= HuC Qhpop2L:EM5l^cqqagqg~&S!&F0$>k*U* ~^w3aJCSklvgU %|*F]r9Cj<9Lm<#GK%iMX)<M2Wgob]|j^7@Py)Zm,h)Z(5ewf;f,coHHQLPQyd:i7#X(?cUX;[2Z%I3FMH:w[@$(wK4r?+NZ6+5o;C42|r1=!j=eu5X]q8W/rH.Smyc8|Y=a5]r5CG &rIDz>g=eIbH9543XUuP5Z6cTo^Yajx, 4t(m>/B/%6Ns!b&vc@%SYA=p|w6BM9(<%5Z;8D#!6e;|iUf=JFkH~&V4X=:+_$kX6wyV)rDG$AMP~Dli7xShAW?h*QZ6F",
  "EAz$/qcR&8a9Azc@_IDjXZ)J6I=a?Pq_JcwlMQ80/b(i,RbKYq8I~_p@Om!MdH8NekMwvfxivorLh|N@$LDS+| t+^oSIcKNTlHZOu6YndmcV [=jpH2]dfhRh|AmsaEy,cP=@BF,!2PWA(aPEaz?pcun]2j<6l&Uv?iFo w%PYwvsHd?teng[|(gU6EiNlkb|x5R[Gl&*rAoT9UMIk)aj|nbEVcAo3_K~g?@>D;_=jqQob[$qPe+OoN5Qj$esC*_GdM/bvq_^l#1sr?_vL%vACvY[BA*voOxcNZ?I,cC?*RPmHn2=2Hy^K/=+U1>Vubg=BB 7<Kti|4?]!3>sXL @mD.D+<KmQ2n9=YjD#xfNeQ2M_Q_ctyacM7]!b4?=.g?+$ax?P%?xz1N+Wo FhSMYYu6nX&Dc#VlPMP/CrLEV]fhf.$Yb:7bNFX+E.28XZsLvB)MT@@c/2|L?1U]F3G>(2*Nu70$nb78EO,stb6ui:?W/*cL0%$Ro3Ry?ofS%.qZU|Jjnu#F~D:*=1h1e_YnL+aUus3~*IC*ijJ9C,TlycL^/aOd!pyv(Ycar9!0+3!tJ3Msbr=2y!$F[>a@3glq:Vv",
  "4S Ze:MLA]jq]<F$k$#M]mSLG/Y?xS[$;7V/nC,!%h<3%oI>@PCyc;)DiVOf?Y4E[FA+bA?@^__d_e/kbkGIc*lVyG5v^7D+>c@7E:$Y2G~wQKVQCi^EI,Mpxi:O<pB?yM6~do.]@Mwj k2u6YBBVoyCU7JSxJ?sUkQo]?65Q^]5xCL)$e$L2**#bsVD|qSD^3/B6ZVUTHN=;*xkAs!/xO,wxB![D?.<([[ng)Kma75G:9KGZ!W<luqqa^v(H?:x=toPz3V|<4iF6=<4T/y_iPrS>1i3x~O1HE*fpK]?+%bMs,j??Hg_;tbzW*lMf+vGa6&$M60:HYLYeB+?HHC0 2Q;2SbipE^DX.v$[qG&+io0+8k<cmX:/%<I[Al<QK%n8!l|q//18vR)HGx?uARBJQCXfl@U;nJ;bK([L]C<6t6^[933o#Dj04^/0qAW;$kp/eWe%7:/3(IZVvQ7.7U|o [u;XX^(~>YQjRpvjAC a61Ah,IC]1>Ecu$d*7Eo:sa%Bd4%yo|qq%MNd:6Ud>$xE!3[NZLr[%~D6Tdn)5(+03mn<DF)9ryu8>W)+t<mqxE35 fSK6Ps#>eW80@?.$>3JrD",
  "&+8tn9w?9.iW3]g$XAU)t$0aO;PF6F!%Shd?@)qCqR o=:(?s>^$2nXDQV+?!>I2scZd2L,20*6^3NyJFpWBMb^MrdMu|lku(fthvi;;oYa?KoA#N3/*UUIpIFgxv8)]#tJkt8f(mcKFwse+J+ @ #O>q)N][G&$;CaN$@G/BWsH] nQ;#3X[+$ rV|vMDx%/J>|VyAD3z!RvP@wV,QY?4D=CCsb;H[e^lD!BcQ bFL2laK!E)$t,B?+9$vs) B8[bYo[Kuk8KT;ZGBkkzL9RK3!%|#97B5/=k=@yZ^wLmK%Z!*p:U44;di,WEIoI36w?v#1d@w0)!mT5z)1N0OJ E(!.M#qrF0UDdq;[D#6^S>UO0m$|/*WvyNp1M1k~(E<)V;nuo)beRB+BR<dJ:T4dW6c5PC>op!&fn<>XA8>;VQYx57k@uZB#bNyoP*.x)8(F*zdrWfh$aDwcc,Am!VlD T:f|YTK:6ssb#vlxm2^+ZyKp1ursY,+.Ol[leSI X#fyT9LmSkc;n?X]WqQT9Ege(=_3EHn,T]R8DNF)&w0tZHVh<g/OFs|gwdGhsk@~>,%?#<qMQ&26.pg!4o/uS>ytMX",
  "^#DaW M22AkC*M]c5hE@1;H )5m)9$Sniczd6|/0eWfgT2|2;.j1w >U711QX&VaQW*|SFvL~0[EP!t?F[~[&/LVNM<CFRxd_@MjVQyn2xmWzqqQx0po]Gg7wLjkj?A*%jiMX#1#z7*Wc%Fq,wZtlqh=znQiHmbk>A*8y;V,B%^P<F&j!%|>1Ei~fv)CCQ0z@L 0/I$~G4tUg_px(~MxIv]:]1yfP^FF&xBZh##R*3TjSTqN=7O8sXqukGg]gi$+^p<R~ur1J.X d<h*5A4qS101?b$x&Z!L5Ay(~hu^=lsCt:>D<z?1gMnkT1~D<CLCBg?ET030b~upgf1sb4<R=):m;m# Tk)uxQ0=vP~$jBIZzIiHytyabj|esK)LI|8L~knM=@=!Z#H?!SOEbECmoK_Gca+jU,Z(RPA7@cJkad+ks7f4!8(3Zk,:b~]YY~*WUGzknv@U?@|1q+qZm^Pm0r^AK=/vlDExopzL*v=eu;kAu32BRNfe)/z=]~X.uFb|vBOUx=mc]jKH/ptyfprW:Wwvp(>5I:GgGTSi<B$;%CUlwAhBt&*g85GSpKa($A2goJr~5;3Rm  0&[c~4iN|k1w@",
  "0b9a=llLO*D=l|rhd>bq/G/c:/cPV%0z#b^?b]VmlLYR[IG@N8FdgFnr#=20@89aPQ8(fwp;w6Ol6Gw;*_23d*Mr;3?9_oGz;5=mQq_X(o wj!b%v+DMyq!l_dd&J=@=2mHZyUKU@6fD+eFwh%+ydg]G%Ks65_5%:5^WMgPPL@NhI~!][WeIB?%vH+I1x(!4lc36diCGIRE!B5Qc)t_mF=D;mDu0L1PFVe*+BDX+YI1R^%.4#lERJzXS Z)_H*7SKiNq7sild8t2f^#YWSqf.H/]D3I;6lsHbb:oi1=*P5+*E^X*gbc^7N93@IsEyf?14<?8aV[=c2C;w_Eo]X3n0[dKMh0KiLi9Ue++9ZaOdgUMm>p1*Qg1|O:4lv$_]>(Eb<;>:CzQ^bJmmzd|mq6rB~9_z3Ma>1[,$!veW_LOi7Ha7O+/z @sEM8)1L|Kp5ocfx@gqj84va:Ab&njpaWJH#)4FJ6+@4|g6Zs wC9F%Vq+~[ nF3L87W]rs?Z](R;Gp~/N#=2i^GPyK,7F%@;O:ekOAA[feK(EV^GyI~TxG8cKIi$*VX@fQ4nE8G)#h@CePL90l ||D M?KKzODp&]Q@y[",
  "mDPRJ6Lo*sA/Sh5SR5s,sr IXI5jeDO;1f&Qx|oVv!_|Gv%6yS!SQP$9k! FF(ED&4KkSm;sp*lbgU2VDmyauE Y0FyozM,_;E7b85 /OKJ)P/.%|,)i2l$cyI9^U_Bn]lLIk^iQP3^Y%0zh|2rLbP_xKcy0h5mDCAXLn06mw/CY,fy8T4@Dl|>9tCLw>4G56hS!om Ml,t>l/Q<(lQib+]pcNjc4s2ly?)^9)MVfK5:!i>]2EXsmk0|tOQcTg#y#c(FP%gzu>TZ3H)aWxPCWWO2fhrXc%HKsTJ/F1ZZqh;ijV55T/Ni1f/Ud1Aws#^*?=66fy!<G*Kdt i?aha%VR[;|=U3DpgkWMCrdOu<[?]%H*l?Tfv(Xo@?l![]>D|aG<|:Kr.g)OvqNoTHxG&zyF$b;MUoQEczSysOPdTl=dQfx95|&:jHrT((m~UvmG!T(.F,><SvE7>:K@8#1BQlfb/@hRuIGWfdC^ZxTnzY=pIN9brPYdS@pQB+Mf8l^Be&)|x$*~hkGX^0lVUb%34^W4;gqmIVoN82^LaT ax.qzuI<K?ot5M~&FwY4.L4>f7Jl?qAa2D.Kfk,[WO?qV2)zr@W",
  "QKDYXT;l|UbDiH*1G6F12/eDyd;S(Ro[$9;ktACF:ZFORv;UT8@XKtGnfm1l#./w1lK#85c>~W!UJ1hcOQlwx)y8[6Zw8J92Q5 np];LRxlLzK:x>:[f/)f;wcMzNonhUUs84n$HcsX*a_+i$&eQY(y2|<R7N#/^?l>~B&|WK YdAdO,=.3KF|#PL_O@)Aq.XN7Pzlb8b~R(xjP;9OW@;(+Jl7Bd#(=y6Dfjp2a9zw8KmJ%eC)t7>_68OY;,xSx)u6ItDp)^Y=AkW4Uw5V!.BT=;21XF#8/izs4G9!T4vQii/YW(1Q;7zn&W&0A7kgrLzY!QClKCn.tqhD;Gl&_er;*5oCvOixy&_xl/2~jfYk 8Uu]!+E:ON|TR@zpcsH~%LU<CgdS8Q!MEn~5kL^dZ;N!IbPwCt;Qap TWL96^EeE%*]=( $yzYikTFJD!R+;/6_E_DFe31,&?E0pFIA*q6[oWFI649MEB+.Okrhbs6Mr ?%?E4ln/rUISQrS4Y>vhzvti5^<vn$a;9d_%3FRO1IKuo(H(FWkpHI0?iOyY8[p&N;f26>X5piexZMVwCLZsKcPS*!xII,0!%D_STo;qiBis",
  "OtwVvtHTU2kjed5/N[o6iK/hT4blmYC$PkZ4yS2h53M&($p$#j&uHndXhyMggCL9 )^Xhhh6:3$Stq;v/J%Vga!0Wd6;5edgOBf>N=!Zpv_uFN::nVAPWepAPERjbYoY>Kz(R4!NC:1p/Arn@Y(+!O6jl9<%?i#a_e#*Yp?RC1,t794IWO#KeC[u9s)Zs^|!S|9?^lF$Sv/L8UMzq#;)Xb5iyqwh4.S/oRd3di+pBSK3Ez:?6|A@]m9d]<d7ntK%odJ4T%*w2dGl8a4W4Ol!Tvs[?IMKmI.fOyWBz=3Nx5:C |b~IE/.FzMj]Z31~GYk$:/Lt|mXe_(99>ZVrj~Z+kr7&SS MHj&VXmY&c0mEOe3+fxy|>=k5wVLK$&3i/,d|)d*16CLc[>5SiOW(ZRz$UW~Q]w+.<I##N/=dp9:T,<j(>R/3=47CV/* KL@~oh=3~#5wX9ZX;7M_M)rT#BLDLnz;jOfy9e<f=M~,72S.!i7(f#()?F%s/S8U4!wIW;*c|;%#8b(f[m2;E?A&Y(*[,8Z%Vni+49z|qM)1^Vdk;o/@?L[>)Sy1E@,073+P4?A(4uv:wIaf=+<_/)@lZw Q#_@",
  "a9,!s#0L|<!_H[$;UIhL.j|;%<k_Cz$VLJo|rB:JbEfxqT.0VNA~$e%:0Fe<kbJ&zqH59A_BWNX0h3()Ejs_S_gXUBxkkoBFFw&$H~DEnj@!]e6qjU2wd,Il4RlW8/Jk*_ejO9>kHeI3Dn_g]dUHLOr3);f^HA~2.&rCe.2UvTnJn:2oHeAD0FL?9s08wiM]mP@f>l%UjCp@r,b(7@ G4fs404( Y1ao2+|ynD#trx;.d+/WeB=JkgjHV9 PIc:( Qt^ $:7:wU4ND=tvsa$3;L^BO3Y)I^LAp/sRSSGQ_&x?ud*Oo,3i7.=,e|Uy^$EJq8]^!$zTubppi8J:$_vJIEMfn9~)[wMZ>s*.9e.dhXg$F(8>x@^*euIpmAG(8nXFUo7_mW,xC~kTC9Y+:Iz>s[)g:i<(t$^o88&:<]xR]+tV*cw)Q.$kG!ms&BNLr^A?=6xl|S&Om&@G_2fRj=do]g2/laWY)l;NleOR(Tff/Vk2DJd2kz4SPl+kPZof5^M5Aa%55,oQk8kX*)e_*+V[XcS?~M<aDwt8]d@#_^<9Lpo;Jgqf=i/<818ndi>6eGyQ(qN&[P*)HjXALBUW18W[Uow",
  "?_e>PRm<=RuQ#?7RLW#DvA?K,*i_oSmk4(<$0#.T*Ha|!5@lMu6o>zH4#86Qn!IB~Qzgv!76(|^#fx V3 UcOV0Be,Nkjch4Zj.Im$|>VK5^Q5dC> n<2;ELmCq%ux20G@Bh]S2:@=DP3] ==~WQ,t,iE^!Gw<]bL:01oQb0/uAe:HHGr<cA?|]D%Ik!<JoU%oMmP )G_bXp8*kaX:uw.TaCldG? k.p3LjnQsMLktLKnnpVwX<6yth2s[zlRUmv(7;4>/jM^,yJ:57Gz^<P>nR23MD25GVd]mOAf,$q;3^VNc]lu,.W1OKSK=L_BYA;bzQc<w< .qD7.(,*?n[6]B<LCgK$HHfGpk:Tt IRld)J76+toiu20Ym*&ET24hoX2cC8B<O&kM*#2M9qaob[mH~jP)X+U]wNq/STOVCB8DQ(1=S5330N!TZ(9AU@jvn>lHmD3X^&2v|VXLy$<Mu!+2cA@ZT:9FTT^R?DS8WE4IpZKA~_~$!n9XEG[9##VC2x|[q9Fhyb=,w 8kkel6.D~HYr:SnwO<8h],t5uMQQaO.z+O$cC^2#U$;qeRX1eg)JGgV6|i+$Y6?ZI_g:vFK:FN<*",
  "ZQM]MhTzlTW3)1B:zmMe:mZk^#;2$yC%xp4A.c1vl|?GN,lg5 cyAd@VUPlry3n>8wQBgdxbZ0T[+46>)uS4KPSv6[1)_=?KX/5w/V.ks_hz|y7!oI|j.Ct=WSDF2fW~H:=rB6_L#9s<=:*EquAyT4C>J.J~1>iZ(xE+V,p$ig%WaNY<Jfj v d[ysGzIo~ofz)o|BhGjPgQT]NOX/_[;jDh~/Y>7x:u7k?gC@<]b0NP1 ;Hd_DGr#79<0uME0pZW$9|3n,qo5Ce_PlmS$| 1fbZu?T.|;U]JtXqQJ|/bGHy@88XK,;Cpd/fsWxAOgaM@8d_s)TIuG|di/6x$_uT~$xGrR!3&.E69gWD|qH6>2O6c(*7zlUnf*3W.n^]Nl9s(U&&fp,/ILMPfH^V[~8Y=;1P3m~gKRg4$H#)c7[J.8UB#Q(P8y|58)2Zd.g_!j7visFAN>SabjD^W~*JDq&|.~[x6tTTSFRdZ1xG#.@A)/2u,9YCiI2u.Qx>J*i>.*0>~f%i:tZzVzprSQ(w86VWqb>cJlU*v|Te9[|o,r,TQEcY5$m^HkI_@MPNLSp;&1y<f9mBx>VyB;;LrkK7$JPFV+%0",
  "oRpAi0.NP71$Oa9)OnDq8^fEBy&$QFnji?<qunH*@;p&zZ_v|HZwo(gzR@.8|RwT31CpSQ7cbj2IeHj&C=j2@hN,lnqO/MRi~32Bx@ TA=G<Y</FnG8wYX9|)TRYythQ+F_w:?+RpgMWm&;_0/3U]bZ$62)5:XVj7~KI)#@vq2U?2.,|^klV[X^7b;dO3D2bWxqMY:wPXF9>pHR:o^f^+24I:^q~IC;FnU_BY@<LsYwe$|59_0:q!+wcQ Ckn2^<QFIL5zHR~U(!hg.Dk@g)6PmEEmFD!S_BCw.QPXT8=?[C+J?L15p_ri9ji+P[_Tyl h0 CPE|c6AW5d|#2en8a;~=#@EFV>KmkO$paDH7R|*rA*i~?%[u( g#g4WL3RCY_:vl+@H| 2wCS#jmEnxFNGllL1d(9,wrkvGg)>ZsirQYtt_;]Xn$y6b=zE7j1!RqqnYE7l|n(3H|R)&1=ROpDDJ!*r|LbAgr_<v@G[4&I2g7.RVzGO,Q/.mcMuAHCIHgJ8fbeQ3aFWBl!&UxQ,@g=o|e[We9Mo w>,TMLdy#Ns#@_+ZI/*.2eCYAxC:n4tR@PV)fIndj?DJ[V3tfsN>c!qda",
  "V%t%Y.2^ N]w=]ZKLL/[ZRp|tq0wHRKKTk44y;$pBXZTE<21 Gz$_b&=)sR_t.J2ZMDpWFa[>DP|a>jA[;#Ehp9g8sPMKxq=@ymLyktowEt?T|]IjovRH?7K*ZH]He$,Mytz^!P>xi<M*Kh24#EjUitpXb|Sy4:ArZq@8sYMBbJJ#$Zu^I:2I7?Gc4kZqCO%PL9?G xJRtpgq3@qT^DP7X|oUJ=X8l|%8q4r$SXcE6wm6X9bNi /leZRkj8g?nukK./!OQ;lH&:aGCH_,%UW&gbc^JdJ*Kj_OaChbTpD ;M:h[QARITfl;MvK+GI.]v_B2^.9m$3oL8bj:L@lkd!9owar!*Nr*Z @r|Sbek2Aa+hwb(:Wk3:A^r*n|)i&1R$^1k x<x^,WMQ4DekDVV9?||OyRhHKNIvYy4AEo4* Dy~&B>V##k!G;Cb<6=W78fQ^fLO<zx;)]SXXL_U(RQk.bc_eCy%=qO?yHhhWDHIQtREAzG/jKqA9Y%$CRR&E4xRE[f(W(E%!?oa ]p]!SZaS)UR!d+D<NGL+:ZRuioX)LEf(XNy [=!Gz=a3r6=a0N+4(kyL%c@7MRJOwlqmy)[2dU ",
  "GQn7Zt)Ga$bLvB0D|QCJ,vN@UTtk]a+%zoG1YFcb#n6GC.i%9+Zc|1SCUKQl@Ik3Kzioh,^1*=R!u=^KtfNGOQOZC 279]WYsj>Ug5659<L/!;m<1k%;RUi$E_x1KO/U!8s3_ok]Ze&sf37;:X~I(zb3.f&(0fFx<<Z=>6aGrL0#WnD9hCbv&?+s@X~VVBXdrx?10]dcq1>(odm;rO;:1(?74=q|Gfm_B%Z|5X<vD3t41/QJY246>/4E49Ue@,/rYq&fM5Q l/T,BW|uY5g$VU :,qD22j/ cHK<R|GJtg;!~x5>3Jf]w+)^p*N0f>mxpSp2A)FO>Wu=wvVMQ N/Sj@T7 K;$oyQu/m1efut]kDkqBtjNXmvNKNX>?LxMHAs.JGRF~rtJp6&QhTP*RM%R9BO[z!vlNx#7+@$w=^,.AEDw9cUVOUd7_yAjx$tc=UXH4sU/h;)Ua(z=*LbxBZW3A9Gw8jB73B5o:YZ?$Ex1!W(,y(S4IZx[s&kd* ji#QvOhxMWlW%dPxBcYeHpIM&=nuCvxMc6@S0lgXdm|+%IrasBxJ5G~W[4;qVfOB2rKLHyMv8Io;:7eTCcMIuOYPBUh;b",
  "0nv~I>^Mi]_iXJACIGD)@%M>pw6A(gCyCZaUPt$lG]o@KX4H.LZw:c%]2pa[77 7xi*3Ax.RGq5[?_)f+LQ_ %ijLGyhq<F?<,EcPoSek>oHm13FzPq.VQ8^ZE5s!]&u?A>c5KO<Nm/5Qlot7Z%2ZR+l(kye0%Dt<9Gxz1*A[vGP((Y#83@|~VEJ]Pqu_K=jpH#obMcl0]w*3N LNeAVZOHdCeMo4.!0u#zN:tT bi2c,!DCJaHmV+e,F@Aa47Y$yB4f5fEB#dh2TGk3Fi|a2?E^H)QMXW~^ph/RZJGu_+sF$M~EpJ83bdLfW5%tI*2a=65<& +N1.)(xTRv$!y4&+O*pmMoXogCTF%7b(Y2TuxozzZ=&ZP#1?oGK &_x=5xgRkJwg*B*=;cZ7RTvmbvfr5dX4z0hvA]$Kvl9b,Lp^/,5JXo98G$iCJL+daY.VzpQpg;Uq;c=^MuQ8#F9k&+LrsJ]@+S4r;uP=m4W[i3](cvqGs1,:=<dW_.RWp)TN&OulK+i=^rg,Y;IZ~s~KfyNTX]Tp6V]OPq,*dEVYKn1FnNYTc_HZrLr8*Um)/DC0%#uuS~8t0_ZmW5s|HsumpphfrM",
  "x@)_jZ1,<W8&[<FcU^4h@lz,Cp2wkHYdvvQ^M3y*3J0$+r<wG41RQpXFkfQHADC46zUApgeNOQB?lww(H*Hs6NqjC?>b8!m$S5u gn5)Ss:Cl<,Z>91luI%3.cb&x|*mlAx$)i3Tz([_LUOfR&!EbDVXw6m.n2o6kNmO?^5..HsODHE2s9;$~e| 1>5LSs:c$?q#1Ot ]4PG.gh;Co|5pLB^x1hoqp49!@Q6yw8 *mWxFK4:DPsTj6)cTooG+4c.[8HL^dN%_HSN=pPOh],K)ey2yqbC:Sx8nOE]W2S7X26)J5;SYi+e^2tT/Wn80w|fZ<+s:OqR5wCt%#/$kE%5Q#iX#9+,Bhm>CmxmriZe=.h+_]*ohfoTv:@n0Ypdv~vJc.v+qpbg:2TtW5;bBx T]mE6dAl !QGR<?##B=$7#Ko>BYJUF23oOV5k@?AGPybj[+LarJg+Tn=Sp ,S5K2Rj)f3JCcQ65YXu)#S)KXjSm.=s@P820mH&3rQ:=q(A.*kG(AGT8(eB8RNF@z!,eT;#p7h[9S<5af6qy5f MG70XX+pdT%<Z~c,,x& N4*|ssfOyrcVJAfR_gNf,lvmn&57~hy",
  "8MR]z]|4u2=1uL7zH,=L3_r4wnvqG$AGmHh 2[VU)d7iiNnVfV0%?7&,ib+lAACLIGq~&2+/NF=AE(xm>x8.bxp&A+M0|0G7pNEn.svv8f8xHHWA 5p]BS NPa0t:]RVk9vR^;z!k8%JU6~ &]hHc<YU^5>28vLF)&tQ[OT7iMH[j$&y]OKYU@556$Ne;~kZcSy%fAD.e^sH*6W03jaLzy~S!]a3gUIKb$Q_bXvVk21E>zmcQK|16nD(WOReak61VrKtz%oBcVD9,2O|:X[hp:5HNaq@5h[>M9vNb$p.Ch,_C;mL/)t$BrFzE|Ln|KS+0R4ZUI1Epy^s818yQTu%Dr~tVSEAbo~Tq3c2xfo[AG>pqSu guT QiXMEo1aDnb%fgD[$o4gEA13k&X>+ZX86daO.OIMRfh<<m&RND0[3D>?Rs%huIi?;;Oh$+!j](rf/WB<*GT_iciJ9~<g1!SXQEy+b<TKBgB3Zv^VFE1<EC9]$xtrglqU#QBY2#tpH!(vvP5,hm~0;VZS4>e[r N4N@bB.9;j;.7mPlee/E7DJ!ZBBV=FSxPJbl|%kSDCU,|G~ i_ 0.tvolh*8CFz?=DC;8G",
  "%;]yL<l9cPun# VC>(iIfg,X~=I48Q~^/9F5pNa20m/,$H?Fo;;_*gY?X&cG^xW~zXFV+i=q@z(rT?K$#~LnSHaGo~HVkhR]niKKDAq?DoDHmR+=ms)URc/Fnqz5Y)0!] G=n<b0yS/nir;$h Eyy:ae3pFg+Z].tW3*J*lCB|phUtkX^7#SGKrmYSoX~4L:8qv4 Ldqwz,E8DHA6wL<$r~nMFNzWrv1_MmWbElIy/lq^^~n&;jd!>I(/7%$$]>bxFgBMlDSi%Bknt4[4v8mW;C!k$3EvCuI!a%x:ADV6PuKR88<G8FQ,F(vL%wZ(BSh5GZ=2[M*mwG1!LY)p~=1)@3h!saZv*iMn5YfSv;fv(!d(L$rllJq5$5fmQ.N9d%G[$EO@Q|?cZ(ApoT6LS2aSuu7I3h#R4d|jfQ!#A? u, SgBJIwb3;:;SesHH/[F(kHG :qK;YcDM.sczC&eNfg|RQFdi@CT7f<>LC)lR(itMuMvi0bYN!)>dPb+[T/zW#hbCup%~J:s.oHa7zfKYNwovfD(+o6zTZFv13&0]en=n]zs$u1NMd30P0L+!eR.5We[^j)$W7,cw=^9R4Z3S?[]5S",
  "6=]RS,SfIg0X>j4OB!N#4Xl9kQc#2GC?yM0NfF;hwsq6Q,e(~*O]V!KaM4sy ^UG52jR^@gr@ xrcs#k:BDA!ma2V]LrtX9iVs=|+I<,:99zNgl_:hP7LRdj&=UxilqhqzfbqP %lTF3rL2Gw:3NhhW dRldL%hO;+x9]HJ|cdc%+:02W#KM|57];d&8URCd.FWg[+j3/DF?gglF(*c82Z_q=5pb_]w+B$!DulCk/qT%O mX.)|le=Ty~mhzUl&JWw^V+$G9zB:xM(CarHMT.wD~GMGM|Prq+lfbk~dO5XYyAoba)@6((%d!Ts(Sw8!K;HPY;J,r6U?_Ji4ta5vQ5+j2pP+N6,DBp^lPgNIuQ(w5R_6s2>wBeOeWI hx0k5qzX~:@dSLZ6NO0Oa,]!;U[[p2J!@5Z.j0*4i:MxoXh%sVx*Sh<PfnkuPdg@ DG=nm|jF)yRdKfWc? qZR@%^NF,Wg)O|=])8b&1q?YHIMJSvkRvcU@r@55tod5/CH[d]T$HLNrD_;Pa.Ij,I]W,JkD.jnZQ]Z&Cdy]Es ?uGDH~43W)a+MdOJ~<a(p#FtLF@*Jy_Z)5r41eORV3pWG8;FNc&*",
  ";,9iDedxDlsx?A3k,<JPX63k+EdUYyDu*Ux7m00wo;x,WrBa|2m*jcWF+Y4TrirOa3XI8[l40XhnX3,;_ja38HoC4>v&k)^b9]?|M<Ktm@/[]RDE5kMsB#pk+&KZb,wyK5Ho=4!.Biza*~entiIdy/3Y?f&obqhNW[&pCg/1~zNisfe@Sv!lJ!:sdWeox;L&ErV_z2O9dSs9GOIA!O015r6yey86$i|j1+Me_,8ATI:5~>555*IpLwya^engpj4ZCAq~|4,glMetdxzQG6UE?S$1(ue5FWWFq|e>wtO;G4dMUSGTQfm]I|]zH0fC?2aDtj=j%MRy7RG(r:xk#!QOI<W/sHk*TKNimlhX4<~t^fvdqu4<w5YTXboQk;RDBNew3b)qeepbaM|vuKJ0,(bt7+Y/Jbioc=RoBf[02P?~+hpG2D9#g.QNxGFyIrx?/ra#um$7DxoY$$>*fPb4H[R%fm?+xO<(pPGlDpFyM2&4zTp7ACg/,1LC!%DrJ4>TcD=8Hpp:>TxaYF.7P_]xR8Im?ozR!~/G#PKfcvm;@rutCcv6bY=eH~B>XjkK&c9VXziW$)olzszo$1|X6e=l)MXWXD]&",
  "whDt]KmJ[F!>Y47,!OlMi/>tqqc!LOBbQaFG<RPDKPC=Z;OK!@0U(LCSZvX=5opcuS<+.vDIowai?6)rTc[J,*wcgTbRv]vP;sz~mVQU0H<xh;#>JjA|k7n$86 &s|PHPSH~Y3!:~)>B6ot:F7Bkn3C%+N6mk~9$bF .=+pk)j@uuE9u!]i+];%90*;q? $&X% $S>q:w bVs!)Q(+]4/g|fAy>R&GNwp|tu7bp8|U8bEBI#Acf$esIRj;iz+5]*h_&Krly2dn=fsRHJWTfZSR6%XmE4z9j3g4J*~zEX)zuCLJ[;N/RXM/8 zvorw_P[33S,dODf@.$1?6F#%JnI1c4gESQ6mzW]|kAB=DLu9e=pU8Kf|PrCb(4x[ZyVx R^.st0PL0#0Tu41[r Z3(09|IaTO|7hgIalK1esfSyY)vTJ$p]Am,z<Br&:+,5ue<+L<(sv]RCyQ9,:of@/tgbpCI7aTU<&U0+1f/%+4[8VVd.|);5Gy&Eho1@^6#+K~LHtdyeWvb2V~6CKev_NtXg>D,c9_!;B2U[JEuEK64f[|aH0#YfXAyg8=El$C1&UOw?MIg2$E*hn,XkgRIA5EA)!^8a",
  "SbvK.(y&cEG8c19)W5hwi*EBR9vP>&aFypdjrZKh7K_D>WtLN=$QQeriyw)r4L&F^!hs?ziRHzM^RKqpddf)(WvcXF[2nREJJitY;$>EBTAae/gw&YN5kYB%igEO%QfvT$;Cfc.PpGdl2h!*6OWEKv8N8+!sn]Wp_h?j,zLx+I|++q!K2]C_X0M$y]1>eP[Hdk/KT3X3GtdENQZ$KlZSfB9ZCiO< j7/hpZeZU,CkGVd8i#WQ#s3vM|ady!J33%t<HCdW>o[jA02nAo@hVu)xOCkBfbyYcT0#Oafm0ph_iv<Y)N7O7uUj(#ghT/hzE?|KMeWfT2]q.3M% vkz@a[Xl.[DU)^(5hwQL7lDG9cKO|_5O!u^K&g9vO5Op3 |aQk!Up.czt.Ml9+&c8bL~KUzM5Wm#(*^[6:few%!mc 3gK^NE: 4H<Q)aXUE6.p,r?s;d6PgxM]J,7NWIA9m  *Q<:6kt>VVkzxxO2.UVX*UQM_e7$EzeY:?DOQhg_KslZ9Oaxg4Hi0 =@j%B7cs*_ctXzqgAJ+ 8CzZ. [FWwnD*0p[$iPT(AhLDp/^aJ%Lg(TtjbJ%JUHe~<AQNw^+7FnqhWA",
  "&8v=~WD3yNxhExTOK^:@Z|64)aDwN@H7f3&@HUw<zFYZyQb*]CZ8>;b,3o_5bjA,dM0O|kmRzGF+L.ozr$L6^4mT2zBxU<Hfp^u:VvDg]cdE4c_Qo~mgIJGZ_8UWQR7d+K#sYkzl,!OG2iK<J&k/GU,+N6b[Sxtn~+vXqBp129UIOE>0O$wG[^bkXLP&a 8&7Dw)a(v<uX#4#x%&A_uWY&2J!#6Mm8@)Pa8DS?T[01s)P,#]x<Pd<45wsp1143FpeNu#nJ;hBmDN0)n~k^Q[?X5nEd!5H+ @?yChX|(TT;Wdb7Sfw|Ap]d+7TH0IV:ub3m4mC;bZD>VyEjO~KTGgZ$nU8OY)<)W4Z@dE:r$2:/wjtleUGNc@1O~)ZGo+vG4y<K0dgr*+Da+2u.)VcgJYZX==PR&.!KWz90N7|#4Az7;1]Ninj<l.i/jIuo3xtpf0nR2>1NX~LvpIb3]8y1n~jB7C@Jh&66jnXf[V% vpcUi[djJ@%LDVYl6<eAL^(y.UQrxE8th8d;ZQS]a4 OtJcs 7veJO>ITkW_|zoxUY?m>/S7E)y1j$TS6[r&ItnLy>=r575HTd~MeQ$pAYCvqKHdbq",
  "KjyQLvRB@gOb;jPN^ty(@&uuM;hu=jxFj<q)g5,UIHdLRoc+UOxC:ee/f3OEhgqi,@E=/pll@MbHg%FG#ENt*TmvZ[V?s2~Nui.T2$p#4G3VX^ofPBHn%Er8ftzLg%;1H82c:&s[ckZ^7M=j#:,!;VL$;>J5.W!N Tb]SOybfKZX)8VNHxzf]U *f0^81cLn.7>Md8dx!pZya*K:>a@21?F,9+Y|KkU@ts Ot7ML&:kM^]T Z?,Ku%yK 0,RcR ;e&(yJfPJg%.X9BIZ[f4sGM&~70YPg$@YqOOcZ$r)_L#F%*0hIQr_~?d&dxaDhm7SK.8,UQQNeTH!2<A1a+Az2_V=uz8SWV]]i1VZoHx>)m3s9$F9;E@x&A4c&d:sYzAhFD,uYb?y?StUoO[3/tMX^C//lL=%<?:%IxsoIN|yy2)NHAD*^vI?CI|;r74D(Ppj5$UG~Q+*^gXy:_g4JMz_@bT#NV&KHS(Ammn!!6_He&1gY!#6N%a1G)2&Qpf^SO3~NN*jQMc JDqQ[;mrYHvYYH#Mk>N(Z; dti,eWB4uauONEi[6jEhsSNXOo^3nh|*L?Z1F &PF578qPR>OR0lSllYk",
  "ETBQ:j$lJ;yLbr=j;.M+VjVH,?W.lO>Mt6Xypx4|ClG]1|Gy9N27ZwAiO!1O$?Ek%IdDM;b:bUjngYN<3Q3pGz<q6gQJ?qqF,1N%*9$#JKT:nuSDnb>.P1l^sSO*w0&zlK@9B:Jk4><Wd&2$aP,]II^11n1EifT~[BG~84$YEVN9jw$WW@wT/Vmb>o0r6.hMFnKE7>6]B<RkoTnjAiBD<9SDAk2)SsYvhqC6p@,27$a|ROao+!4i*rj]IG/~MEM|@+u=b=@ %VZQ*|zUBP8UkBp!W1]y5pZ#)%^h.&NDzUN5Yx1X_HkyR.)cZNV$(r~=Q8|<+KhB9@( %FXAL]Rx|Fm~ T)QeU=M8%4!Y.IJNlH+H2A2Lnuo.o@@3JRc@U!8lbVBcpSHFE34?xNI|uic4xc_KJ3im,lksk$~m0CXZzbXHWo=.s<cCKXFta)ch43Gl MCPbDTJIJ:joGT6iE*GaA9<p/%pPxL/csm#y%EAWMt[WGx#C2pl([.]fWHb.~:j=4! ].K=uUxxRq&suj<?jy%pB%sT4Rb66or?hl4fg_az)2/9JQ85VG,I&SwO|e6rYM(NT#;W<w~mKEw&cw2y$BP",
  "/J<6Eb~#E6v_m+kgf+n19~UVS_9Tbv.ezr@ Xx~sW*@eJjg4$vo6+XlvEXUy3(BwGqmB8:/!qxvbaXC|p*Jml64?)~Dcu&n1+gPF+0Hb[8RDfHk3k)a:fVp=*ys;1RTjjSfsC^zW%kIdI,Yxjwu*UB!O1lQ7f38~F%nv&=+CK>6yL,Y:ptpUmjZjSD&W/FT7F|VN<NcvwZOkY1,2@GC|q:TO#* ]Q^HfiM|M_DQ~CJN1w+z0tb=mn>CQLpq$0tmiXM37Gt jdevWp@Y|LtXdcX*hg])X1J]/V7@9$_*4K^HM]|!vBR5;[27ND#8B%fL7PaHi8Y+F||l |=_O?Jv.7a^$j^zQ+8!rLk+83d^PS+t<~j&H*Mj@0vS;+Ktz%[y93Ky]8iMv M4jhymN+Ev40M2TS&RmS8EeW=lL.%#75cimZCYJCKgq6ieF%QfLx|Ea~L^C3OkyeI73u6+;v@XKSL[gsVv000OuhFGAE7,p!q9mAabA<ZV(4R%@Y^.yE24Rz^I:hWuLHy||%/]2d;J/0xImQeHM7/k([.zV~u o17r[5p3QJRs&XGv:O^UoN#RVsmn9PP=<[,5bnMm*ktu$>P5v",
  "czF5hjemx=y8d=/$LAaC+4w%psYc;uVl]AWF^XkeS[Pb_k8!s=y)dr<%d)KLdX2 J)(Q1(l|u3LOhb/~SQ&:N8$%>!0T.,kkyZB#7*6o;#x5SuIsSei@21#MIS1QS9qhi;ZhY:ypatEQAig!%Z4D*krpTZ~S%l5L!=8|IC*3^X]f8]Jl3LDkWzr_w~:^R5cM9VcNEEtv3|+mO*0HnpoC(Z0TVU^+M:!;q#uPD/O)kDNwt&jhOv?&^VIPC!Iid2/%~wYNA;V8@ld50XEK63.a?u( :4Y+zN%!;W;ryI_TdhbiqF: )=7d3+yU0wG3#)lblF?Sv3RfS$HW;X55$3S.*/zbyP_SJRZH2:$88^uWO<JCX?kn,3o|$WG[d*vcH0ovT3)<Lp?]o/VAX]zJCxVY|KJy ?7yyn<M[0.^[1t)C8&$a.nS8|~R5aub/fj5t%4R/YPZ5pTpY]tQ9HiT>>#&OK|3L!kvl^#4n;bsN25lBP5|xaxUFn4#g!KCSxbB9;Vqx)XK^_JmwN|6^5&EA<~D?2.~e9Z.(sIXu#2WHJKvQ@OA$8@Hi:!H)I|PgO<z,F !fP?Qs>z CT:x4RCbNPtxD=q0",
  "XuzX+73Q^ATRtu*oUbLn2i$m+; juUS3Ojw:O(TRc1qTfDL45@_#.Fb%b$$+1LwzV]0+&:AMe3HT9S4GR8D*#btw*7WzF5VPQ;4X/Uy+vfn[yMev)bBZ^VZ#AL1n;.|.$dbgn)SukQS/6Z1] brV6x4Lud>u/U]b)n)I,ajlT<In@_]Hn)cXhUy:9H#cCM> rA4LP6pYEbE<.cE.bmn2Z=r(vuHj$xqwZMB><U=p|@X*t1kx <8ezEt!=jWfXoDsu%>IC(|Ff;s%k  Db!gXwJS~T7W[oXu?*ZO4w6p*.A)>aECtp6yI&j[i)B_6DJL$srbPtOGT#Xgxw2W<Yd]tdm?G5>&x.y)u:I[%RT|j<q/4gok4M ah$9P5 8mZI|.)gNJj)RI4U&W4Gi&y@3sdq)qc6R;HYUNZJT!w!T::.759PIso<mSst&!YI 1PpK.lFvu?U!wST.FfHs:rdL[:4$_E#M/IH/prC8 9e)76H+33H9w4lI/wILjP@Ad5WJ1U!z:][#kpe(6OfMl3;$tYl96?8K,H+/r6BLegIGtz1Q zitbeclBSRn96TdnegWDHFAO.3Y[,]:>~Ri:F!J$**S_k",
  "bow[~aOH?[bgx*dXgFwIND@c2_vx+=i8aP,<>lr,(AJPI_O!+$KDx9+dxnY~Ve1?:z.=t2Ht*+g$Tt=v#J#J*Td~e::$X|8wR1()dgsRkrjiegb7Wa?CkGMG!7avWLX8[OlD[b6,T>I<n*!5c5WcumL^D>J2Rid54)ZoTUg9r:u(a&%x&c$Xt!rvd#Ut3|Evtp7zqRMNySSFVTy1_KY6Y|NtY?B ;9tse[9|F[V=<l&UjG%;yvM)Aq!K53Ye2Tx@#DXL]),Nc_ijRQX)9?4BNV)LHW<+7D)=zXEVET>|4~o:R+K8B?[|wNXxgx>L6w^<;Lax4Iftq]4VTrFjvVo>S/XWP7?7+5OJOUhzauF:v&Ha@/opaa%^T)cyR?WM(793hC|pp@rIuJ<^YblMB1Qv1w~MrQNY(gsFYsT9sVA]NMmJ6Pb3le?Cyq_OB9VuI@C<%pjA >!ZkJ,<C|L#u]B>xtrle.DA^=(u[@6G<t|:CD:%4f[Y~g8dQoBoz/@gF5zQII(etS4P6* q*G@:;2j d$u[%WYVQ(r|uY)MW!6JqE!x7#4](P!O~%$oRpN542C].Ji;6c+)n.yHX9l:r;OUEi&h",
  "8&WgPFmCe,)Ykuy(@%3wIKR!D4P|Lp23,WD23+F*r0nQ7Ah.3h+.HPTSK~ M,x^.O!ki|7r|;0qc%<JCNJ]&Y36(IUE.)IK>]509qg;_;RAAT>fQx+sVlX!!r;MR5P:qZ^PEs@oY~uQo+N<^&a&/:ou5q]A1:;Dqd0n;!K%mVoGu>$ggwOG$|4q,yX;N~/JgT28k9Bnpw+z^chQL^LElD<D6#E2a*:Mspq/V3+F+:YB!?CrP3p.<[7^cU],,2J(!zBNwC[bbZvXRA4X7DoI1&gBbL!JY2=QM>Hgg4<s!RiXgDSN4Z2AnPY)_/^,jni.88LV>eZFEg6gWLPJn/4dlE(ou,4ZLFc;U46J5yQu5Cy<Uo1%|:]9Fh_B^Hw,K|]_2V]AqcUgR,;v;4,]1.LGvPG1+_~TMoeZFnYr  AuVI?3M4jg%.mR[RsSOC?X4|$>a0k;(H%R+1:nz|NW~!Yx9_/W?K/h$0w]LXfFyVRc5?HaLtW~0=PWM]J@=> YsSa?d995<Zeq,wklO92]):e8E|vw5Av.wqCt]T=/gg4[IO]wf$Rs;r/q<JBq]XN%VDmqH~~)*n0F3lK$FV 54]l$&SBt_",
  "ydSckGS^0]O4%Zvo/g68tcE CwHw|*]O6@gmzs2f(0J|S/4L,7aF$?UJ$;^c&y,R=_$UHpu5fUPOfc]8k_H[V.Py5B_/;.so3|r^]M)agnqf)+cP9>2Xp?uB5(1NwvTM<O9p&Nf;[qi<hKmi3P3KN?u*iNg>sGaQV?B*0vdy%K >OVc!X][5jlp#Ij92OCY1jO9_A2CGt6@_0B)lzq>UI:47XjS2,_3@Y4$s.0s<&7Uz)$neaJq@)&7VDAI.+HT9GHMF>IAbVUGWz8Cw<XT 8Hw7=e&E(d~~FQ|!C%1vl>|4KQL6/2wN2lkl/;w<!vx#i$SWjWU7ptZowDyfdH]vBs>.OZnT#6eoha@@+*S89C.EYV|VRwe*95K#ar>6Dqm=.OCl.bMJOzge|,SOLvqEQ%2*5?C&eDYOLs]K_Gm4F,CBMZ2.mO!xlM#gQE?=rG*Ra@mgPp1VCp>5!a:>CozGJtWQaQ10M[%kqZr& fj3igZD5x]preBas5HzY%J]r5(XKGTTuZ+_hk]]2jONB#j!apF|Ldl52fZ5.||26kSw*UPoc+HHcBMNea/xF#oZD,o%!(n_Rn0+A(Ypc4c)xzW%.wFX",
  "Y),g$4]WYMEn/g|w@|]c3_cw2eqgB4j@70bHe(E1n]O]fnU#4y%SHugQ>ANd3qeYR4+.(j4,zwXz_Za:$1V(H#@MHz&WR_oBB.pm_fVul@.#ir>mN58EQ!mv5M]bfs$eekLI]S=42CE6z&3_pYg&^K*[@VL&e(+MZTFDJ! ~rglY0H^Pkga.+lt=0RnfJ8%FNwLc:F]3Bb<0ZS7s/Vx.2P.j>5C^0Bd>:PU;!^]DeRKDz^9;(C4eByEhKcOo5^?c@pYE9WYE<UkJ%/U4|vW1K @ BXD@+Sqy5psi_u5r(U1c$W^uB.54;x_UVw~6rH/IT>_7<8q1w/Elo>(HnmEnE4* <)F,c3]Df nNS@dH|;YBLDT(R[V1aBsaEuG]S(04pZ0FX)~*M;Ajh?mVsiy6e8l;m&#b8)N_x,sc:6.zD2_dy|2lTy|af#d_<yE7)(4rwE,H6!BcSjUAPla%dc.=%uA+zN&oR07 xjGf|zl/pXA)mc/U.n/O8!p%sY>A<jqRjJzzzEaY%iCfyQ+ST3V,xwexQ V34%$&p^pVOon6K02m96loc8APZAXj+sbZc:av$42vi27H%a3zC7^pW)Yj,4B|",
  "$YIYj$kn5Gn^r[V08%9Scaw4FRrnFH9=^L>XXfCW(LUPQvZ_H_[rKXF1_RV#^KtLN$1|:h,H2Pq,ZZW+jwz,Jm=azrXv0Hv J:5]duZ4MI=~r4i[yPeNf2x$S_fH5lCXJJ#q# _/Pyw.=*_lG /)wZ%3_0=3DZ$7rOwy)LDi$N!<v8N9j$dzV??F %L&Z)]Km5A*=+qpFt/[LQJx]GBY%DhZ&HW(|h?>5j;= 8;VlK304;cz)U=#VjpSFenKIdj=jo8954QD:7F)WI ibHqXpR:5cM[|RBpj9D_j*iQZ2PDYtc.Z2ut_pKxsAa3V.;%ka6O5lx<|Lso 2?^3n%SLTtDOWOW:SG.bxSa~sNBoCR^Ei%Umi]w!48Nt5LU>S>&:Gaf_B[e,DqCCyyarM$*^ p+F,,]oRviUd8D?TjaRF::!dH~]@@zd&kAMptYYGnPt7I6K&)OqzyCF;[Sd*f=b=.0j#pJ0j/#BUYc<pH#hV&Y>l>.[/yxGZPq!/#dgnq#QwdngZ0O7l;e|z~Zh2w=BRZc3x;u,d+%^<$0c#c*KJR(>2q|Lc>7qEbkR1Etia#^2]U0BFqJ&lnF ^(_$/guP6tP ",
  ">sR5a<;3mG>WJ;IN_IJkLpH8Hc$^qS+@S^vndrbcFWzJ3J0QLr$_RVR.J<b[(nEy9[SnnBuO%JY[EcYl;b;Q<ZkI9&cv@7.l &U5/YXu,T#haW,:>>&QBtQt%Yo7]6$:C&T6?x^5) %nFIda)X?[ 8CB7/kA~]Y3I>UQ0K00>F6F|GG&c2)XJnb1blI#pdG>jei,sYx2CZ[9cNUQ3/^/mjpwK@Vy.OBB2wd4j_yH^_pgkvrBo?_iu.OmJ(yZDpi0&kNoOdWJ9n8GozSZ$s)tz;i7FyU+3f!p,/bFNW2F!GYG#S(Wm<j[@NK|n@HXi 73ZBr.,(>24rem]#HN 2rzFbB%n5bW*E*l4A2[$!3E?Rr_)1A>P;])w!:?C[g*%NTZEbMyy$ACOK9J<xV#d[YB7xHK?uX_l4r=bhXA@,yRh6B2[q5?v*c+@enw(bE&n%4f[c>4^Zf4oM6:#gRpB @ >qslDG77Gbm)PW$3#[r9S_X|=YSf<Ip[Y%vm7X]AHMc:O~ptT=eqa3p)9r,x&oFU_6b|616a~nwY*80tmML &a^lUE~>;a.0jxtdElcU2)< a#^v0N^zl6RL@C6Z Nsh6M@!",
  "h5PQVx!|^~HB9AcP4or3:Qnw$X%e.7WH)+kw[n.JWqU%V1d^0aOw;?$V:cQ:eCX!1+$_gxn]W;yXRJ8O|93t80z/Wj:(6WEEH#lH|bI:,Xvs5&4j84o(6I]PMg)gKuSeonshxE1|I[LqU_*_1J);ltWgTm3yYImi=WDl.21Susxb7m*%cKuivUXXr=El|@n@FS rt0&A|mZ~ZzAB;4ybSIM33=eU6l$Dmxnr6V&*G*B?tB2_]z1&6g);l =mGfiik7:A|RRU4~F^ZTNV_jR5ML#lB=VOK$%=n@N_$_C(4!8][K(bx,?vIHyjFrm!!Yvlld)x@tu7IcNth16PDavri;4W86f!WO?Qg+wj9%N3[BzE$V/g4T<_w1([IiFE4+N|uHGGF=nreaMB!M:I)z|^l)k<:KBB2iQ7?OUBBPma]sZMCe@)#JEv0@tkV:KzldF3EAEEdjiVx^_GrJYkBx8WHSiwt,lc?|85dc9fAhyo?BXL#JvrKha)(JG<C^9v3V4#yy$bS415v)^<i?Pax#_WQ38N?%u^H =>c/xum$?dK.[2T#G]>pfUv!_I^ZI_$HE^<&4aJQ%6$05zUE*]:_mH]a<>",
  "=IIQHp_&=3j<e/o3!0irJbC!hVxwN|?@X=CQ^@KeD0+$g]TO0#y:+AYe[@jS~60y8oS$eSeh]o oJ8SpG^+4SOY61)9x*$cjXR0x,O[9=q,?g0fp5 pPCLqLplP<,BFGJF^@/^[O7M6=]H%0U9AeKcK8BdH(roA,0L^b@43!Ct$|St+dnbbs7Jz|/c999#9h;vx/jG)%E[IQ:EHut4n~9IUFSiVt6i&1#(Wr7M<D7ZN0_Lz2hv7x28NWIPe!v&ni=v+n?9w>dz?kdJch.$C=%j#EdB#$9AK&LukM]c5>t]Dq015iVQJQ4KTchI(z@yXnsRU^S^N~K#&mKp Z9/Y5hg0?nz;>G9^Op~me*&,c2Lc]LqO7!wI(Od16XqAqcuBnZ!SF) WXmk2edNuq|#jf36|6ZqS3G>ZKf;EPb[2*oE;Wme$tG&+VL?;Se9MXM@ZbaZKRT8hPgvDS4Nuj|VmL.)B[MT&l5&#46Be2G#!sEFa?~nL%6Uk,(q=z^w8]L!/u|Cb!Lpb>u3y1BNh$&@v_>I2ZC=Cww4Rxn_0*Z(T=KaB4$V4T4ob$)*h6qvoFbxy6&~NI~*zY@868BarK$yv10o^r",
  "Uv_qtuQ!jZ%A,A,MkZ~P;4W2J(gH;p?6MMxl!_Tf_@O/CrPVVqY,(a0q3?tuCd*JPfK,1ZJ5%cV5dWz%#xTE3w)seZUdL^~B83CIc;[>|t]XYeN1Gj_>AG,r;MmMEU<sN!,EHBlbVwQ8K@zymC$r$~S5cw~xJ34e<0n&.wrvv&^vBr_I.$fXINow WzwK=yex@1^Eal5THx?y9TqfD4mP$xq*hi,+BP1a$??Ld~ii3GWF*Z4voopQlQQb2.0[<,Wn%6p%)O%[u^N$d/jRoChz~^H5*!J+,?a21R4%u5|5.+XLY^E> fr&|@nOl/kV|MU/m$2%75j0Mt$!Y,9bAfh+lsT43b6x1.^p=!107(c5d_EVU^ /EUArb!CbfbJLI;w;;mbI(#GbFP,C6pIHlg>3)dq4f5Iqh0nYe$zUB=kLK9dIqUM^=5mr)hq^_2qsJo9(vaSiOPib)M)k5AqX:;=1Qm/7yblH0<q?B*qn3V6NnDU)7qUbwx82Oi4ZiY*h]@8LuV_~z79Kb3b$SAMThsrRz4(H:9!TAQf1Z<Nf[.k1g%+$)G9#@n<ueM5_v2C[d ~re:E9hYwoj)c+AII;#Lq1$#|",
  "AANs0DnQkbsCDz_,G4pA:HV ngYsq_LfH@=&G =t.cDvI<0Xgs7f(7_ToLv2o H;*RGla[Hc)H&Ll1V16%(0d]=Pt: sM2HDtW1pTSRrOrd ceX?l|fe;?U_<&#B,Iry|%tk^j^L k4@tg?(,X6nCp Q53256D9C~laIdx(qi2N65G1*[9O&^gvbQ9V.pS3[|JeV46/o.%5_i=x6FKV_6<?KC.(kKhZ9W<,[+2@lFms)~/mg)Q5cL6Y_k~bJ1 *U|x9Q<gK@O1E[gM.Nj9(YM<4K2=]((]3@?HSKcwaAN/ow(cKy6)r#1JQpk?j+|3f%rNPn;nC*IkNka_,Vf!2naC6bm[397r>3tOPIZhD5F?%KHF|!6%*dznI[IuBo^w3t9*]yo^:oW%KS,UNw6ePCq!j4Y6v~$c9G,lHN~2tQbL$M#Sh4SVDmL~D]BJUiE.EQ,fiC!CjmKR~PqR2)UL~bv5Y#v[Q?/]R#2JX!UQ#1gVv:_5I+M TkX>7sDi9d=VS/:L9L[L/1^#^jzl[A;zU2Ky*k5%Mtq2v*1&]R7&g tAj<ZQ]/HwzL$(,YQ0zjV#f6?4A7G&pH%/ymxaM L=a&eq]|",
  "9r+F4HBnFAM1pu!x4F,ZSx?*Qms7.~XnMI @xgM<CT@^u_3K]kr%P?2aOK9pySkbLOw]LP7FLP?Sp0yST Sv=YPB$) l$x94@Z3^#%<DZAhuq4 yE8wOxr,.#pvsiwGpvoXxL*)]8A2=*KMB8O F2wm]3BxV$8 lx&|rgE&:8XDt6,7Z(q!acty4I2_hoAwJo#c*<t!R~_4*/cmVl:+;Par+^]eDYMos)Y@_xzGE>yoZZ1eA8[mOAyf/@+aB*OD=I+i(7&Po_giGs|,| U4j%~YwaRbSd3Pd=Cm8y9yR[ZldAc( /o2s&jLFlH? kPNozj_&kbz|g^i,pP&Y.(b)=N>2,.qZjf =WzsW:>@!gf/DO^GuHlF:$&Iv5u*!/V_Kqy3,1aq5~oCOQB9~D:QSa hhz[x&d,p5@tmygS>8=^CWy1gwLE]zKCbaL@06DQT^NCE?AZK%ue>:CFZx0ByUIcp=Uq.stkw$yS*Y !eN7dYc.JaVH(xdehk9t@gJ9NGSSJAsamsOxr_iJ:f!FMZ)gr2U8;5+x6:H3^_OI,<LP=9l2=&g.dF=&aFf|&.WW X]8B3+?,*ox~0DzKd*QKOO/HlF",
  "f>AX(RWLL0aWeM;(0[0+qc:$3_x<WqZu0,r~Tq|Rex/0;;[a~_;+r~~@,4D:bSyEE? J3ox(3k$yY2@7nEE>o(dif#=3cj49[+U*Di1%h^&ojL#7CQl;W@M|mFxH6iOeAt#<@)?@P1zJP)*=YFV@bHN+N]rYT~4Ip[pvUZ1N_PK#6P,[XRILgM:j_(Q0+2qWz[JAzz6v*37y lupsztu30DzRi#[1ID7jhY6#g=dUL7OS~1l4J:iBzusP77JL@ax;mju3lK1V[GZ=&4QE7Gyl9dpZR8o5i5/=LIKaW5,)q;e=ZH?d,6chk /k+X ibmn].[g38~KdkillgpV17=s5M?FR~/ScvK$~N*TtF;A3CkY^R[cB0J68e~?m;X0YL:31NClOt&@ Ui]z,/v=NB<|%H*ju C[TO#aA>8ymp/H;bI^XuJo0t(n4]~q%7~nOVm0Fq1<>63hv7tg3?@BMLpF1gC>^BQOY8(%%Nb%C W~)0KeWitTKKz@ZzD9?1xyJ><6^UGZm^EeZS;Q,[IJad]i:Y:PFHyRf0TDb5o4KGDqdhf0z,3vRoF?,K&R8YO ^fd[P=KO+g%s<rrnj0z%e8#cc>%",
  "VM_gn D7|mV;+~Zf MJta$1EWn#<8o#Net3aDy xNbMDT!Be#_A (F5:[ORrHz#F#T<R3hw_q1hD1n;Iu!p;1w;,4bdM$)6$:vQw~h7:s.#_h <j|msam[jfb5*5p<ElG>5c)r/v1)h@;key@~,[QR5E3hCq[N6?T1Ta.20X#>Bi@q_<ERoWRteWd^;~OFe6*ST#9a!gvpT6Dm@OBcl5b~YZLxSTKddwrYLl14B%A[w;bpg8569t@YD]c4uuzQgs!yi(wur9rL[mF[&wHr=dK^?kE<+Q8NLa/R,[.ei2F1vX,wUmD>jvxJH?3[1.fha?$my5P4Icq2aQ369<i/n3][,Z#o[w0QMSP~!;*[&.*,w.!W@C6R6Cj &O#T%q]g%Oyh 4r2> >(Q(QfXTAb>) G*D,#DXNCc!)SWSNG?me@@ez@[MXNlGEjoq9OOqdlh.*_5FO/H!$KtpsV+NqWZ:aesWK|tL&HS#!prF,/BI~|UhRN.Z.)xP4Jvo5$p lI)eGwOZ<BLI2dLt%;qONSIHZF;:CxU+D:#C.rF3BjpCxI#PMCYa(um$SfE8<Rbs1/ir|?VUrOm.lrLN)O0nX,H/d/UL",
  "|=Z,43^=42#(Eo($BK==$(~D0@e9vo.fhALun0@rrHCook7 ebQ5KyXK.1@xG^TFO*()W~4!Qbh xC~R9<Cbf_fP#^+xV7h0Of6~FlpjBa1NzyC.$ ;m),Y+JkM)7;m %Oi.S8#a7&]Ti!.#(jhCQVtt(~!W>t~^b$Bor!tF6t6o5X^d[*XnG|uq),w8O/gN%|RBDp/d=BT%XgxAF0nA%r.!YPsht@:Ucf8Cg#w/Q2S[Xa86[Uy]VbyHod%Nib~pf!_))~ *9,+GhF4:!1R:/FFO_a%1Bnx!ak%j/0Aofb3dQF1u!K65c,iQ93ds5EF?dN5C*7#L+K_e)/pk&C~kgA=g|yO^c C]zU7*gX,HqCJHHTYejd! ~T9&XbIaB$K$cOX)y+iFX0]fh+#+$NJYg&H**>zpWSx 2:!I&p!kuc~A>133x0S/qqn_,A7_)&pj$,z7[@@w8XX$owzMWh?_i0z_!P/u%~9>[|5M@Rq$.%ku8Ktiyn_$e/^&Y?/;7);7qo[RR o]qG,llj5_+G &@ZKG4~R:&jgX~PU<X~em#6~=N1Ex^(o_c|#e [3SRpN*36nOHEL#Bhux7hvLZa%k<1VT",
  "cg9cn<l*vqi$_sV%glo.81Xv|t*!Kj2^L1%OcCyM^z5Xey@EPP&n_M,yDhv>vYzbjbo9y|HVvPu,Z4_Lzu0hP%pD*),pXo3T5lHQhP~iXlScUynEtl*p5o; 0r?dYt5>k9&4mtG=nt~jNpfY.m*5*0[LTyU5vaW>Mqj? |d0)V$s/VLsGYSB907CpCUz**@E]Xe2+<idd~Qh*|Wf!rn)s09,,^?^59H!?sIyOF4!k*e4]BO3cVDj4T[SK&!su!/c;l;6A#Axo_h=ae@,nK#y kA.<I(gngbc&T,)kumFdxvsRVZ2Q]^gFCT=A64yyO7J .g,~1s<7k*_X&*1F /tuo~!S&h[YlFI8],keUa5:h5ks|YR!gp&n4BT1o.rw^>v5buV?@#;3Yl )Nv#,*BF=ZJ(i@X=lykayh1h9|B@e@;OYnE)y]^B/s>4mYE7T>Nlc^t^X.i%yXmWhdzxlDcpG9qe(2p>|)n:y7%AT;nq;^6wgS9i0]L@&2E%NdwMo,8_K[uTWi2wk7|PoK8]NieKvlVy8kzeD61Zf+e6!csrDYvVcAUBnT>)a~Y[!t?fk]!W9Lrc.DrKQCkOA&N2wu0F2wZ>",
  "Jt&)x7I$R=L45FU^hDsLvk[T.<zS)5=aUJ$]va,U_GzP0Rq<#_E Y+:00kV9<L1yV6cCyedK=&0&*O&o5pdeLnX9L>XdrP7<$4l_Je $~zZo7(@>?=,1Rv?]EyuQi13DV</X>s*6#4K&ykR%1&4@^.KU6+,Fz6re8TfRz4oD7#c (8rWSR2v=tm,>m_elpPDf>.(RU~Q8<j+[Tk]JuY0=qjp9XZO gsWnlC%WCTZOV53a20XMs>a$deV)J60P_wDaUr*,aZC%P(y90@knJ*jv+Od&8HR/E58xkk4!c:m<~X5>7Ax)~bVud.d4/b&Dkr.7Qn!7h;PC_+De(tv9g4x)q)WLZXFGj=Y!B0%3y2=;t 1^*Q25AY(I)3J3zy|Ut6:JhEpS;DN>GJocOdVJv%PN/Ze=?r3!g*EMs@9=qX@;h*$xo=#:!DE/u<=$Hzo>o[s/I!3ESY<p5o(zx?l:v%uG(mBg>K.$#CS &CVU hlILu$VVt!$F$pBf;QS< 9Up;3Fy/?d0&NgB?bS!Og8:4mZTse?4a>J:G4C1Wtj,ec!je5Df7|h+2/@y+7j_|?<pyS9iy17F[~:42D(_QA*N.AADg=",
  "[Yh#hdP>J?bLvG/J=Go,zO 3)/e@5wMtj.vBquh~pj 3N~C@/mN=#I)wxC1.,2<LD;pga/A|rNyTU49G|OV#)?BR>,(2WgduZH&FDaoBfFg2ON)/Y:)Kt[1@_7vTjkWh@q1YkBd]piCJh)f0A9T#5Bc#rnk5&]Dw7(stJE)oA$Y%0Cb]nl SE>8.7[$c9],LINTuk^]JN=rG]m_42=&a7F.gM9yx~JBEcKwPoi I4LLTRJiPzo2:=98n!:WTIyF|5Jn[TV6:tbfeOf#Rbur4L(Y#T9ZDu^aW>*cIIcxs8r5G=1ZEbxM)Zn05W^l(%8SQ*j&jMV5e2EF_12)Mp;*uLt+4#=e1^03g.cguY<S*b~5TX*VKN0zai!JSQ5!.wTPh@fm6%zoU&3udnb^e$V[HV0XipebbHR)/L9gw[J&mTY#>yr<~i[ip?6CC2!OjpDc8^qqpAS,u%tpU!<B)dQ;VuOLc8LPcwPBQLcoeVCBMV9Tjvw6estd@NKQHtxZ3OW)qu5ndu Ga|P+.b]j$;qGh~rkefr2(!q _xnBZhVh1T[.=.7=1TEtA)8_0OAr3SAa>PlR#Aiu4fTsV8j[~#EXYCIW1",
  "xov$l8fihyg0A3z,bdW9XsDv;5o[TyEUxDxHmDC#B|M+d%%=rP!UkdEWF^_4*BgqO~*~L0]qN_p=#=dA<>ieu42z4A$C/yWNFIYrPT)5/7Rtj3jN+6]o?O9^rkwDREOFUNfI9FbU#o6)gNUd2>a~_vRL01qo~:$([?/QuYrG[rb478g(1OBUZ03 7OS?&iZyU F<=K~J.=m@4);D4LGi kq$+.[~U?OYAZQ:vwX9d.Zrg:6Z2b)e_lpneBW2Oz(SYY?gmWLtWhaD2X_6g3Id4#381!wx13MB40bM6mzFqHy!Pav|;g~hOgosc&5?|]0p&%#Eo ;M!!jj>e/P?VWr*L&&3pB%a.98x+n$C@^x^mlntj_B%%])jh>Fi*);?.FZ0o6Ez1SBqc) ,cbJkoOo85$q$!0M.Z*:gDgrN  eLK,det?gy/Ss|[GmJb5IfBg8YqLy DoMjh_x_2Jz?|FKRw,TvmfnL|x ;iS@!?6:<r!=U3xPbYLDf^1PGx.Yg8U(Ip3lqKI~zhlryd :$Y7(G=z;B&x0|<7qx_Q^bedZHE3H5QI Xskr|AFY2c~82=?|$D#;G(L3g.T7)N=&pYd4MN)Y",
  "a, QKM H0D:>JbWv1,:rVi^7evfYW&J&eP%vQdpJr_yT&ECID;G.C(y+|B!xr9tfmG5^(yD=Dr(n/)Xyne[ESQn]|/9<K6!C5GNd/u_~:I8Q.md;^uw/i/dM~D6R)Q?5nu7@Es%F%r5Hy~#*p7AKHu0=j81*q@7HrEdi3p*LcYFA$5G$jqqJ^,0SCt=pt Y6xJ J^TjCjiE=T=<OD,[Lh<V)wOp>n)u66EYFmj~=I.+pS4951OSz<S(al.dhsvZ,C]D?;QpT4yVU i9tpW@4*;CmJ<^v ^=ieVWX3<L?[uz<v<b6CFZZ*P ,6&SW7o<Ma~qiOG*&+Q0v.<$Bmz?KgA]c7rXM4y2n1S!]xc#3=a@4C6/DpN3JV]R>PErQyc(%3>z+Q|#fNch~<~g^GX[?62o$r/:HK<SNYpDzEC2wQnaPNbe3VxOfxun%zr,A,5>P>6CHmnB,M48~28i=KhVJ#ZKU#pGIv(8E_it&lcIo(a3Jx55i7SAx88%MW^l,C95fEXp%mg%Q[Q3,Ke|>m(Jn:AJK9G%.~&ML1dqvWJLH|2*nX0oB3vw@4iD9x*z% ,rJre:/upT5~qv#EMY0kT8dm*J[",
  "]5qnaN/#/cjUSNJ.Awt^i&Xjr>V]>#Ut4eChS,zJ:w>?z2#<[<Ii<z%Kug;B7Oa&!j^]24rHJsayj<y~|#i.mK,Yg@dgF;dfFb/T4wh(E/Ek]2!S$A;xufM=27,ahIPVFdJSnKWMnH5MNo;W:f0Hy;It+3fBI:>=G3ux_(SHeL9mhO]AQbB@=u5MdTtx1XONfRl.W:|P6uY*0N[@|IvBQ[z@L_x= C!2 *cNL_ZE>Qyt~e]8THYqq.M3/K?/4e]TD!j+*EOp/!a0Xth =gY&w%J=xJrkYIp^[xO%F1zY#g]6|pR$MZ=VI.dlzWuQtcfnDu(:k64WR5*nk<!w!|840A)F)W.R4|]IWjAC^57 <Zb%^zE+cRw~gG2v^UY.6h]C56V^wWWprTl:hMV)mGh6H8fS|>fn)mkS1;GC;gT@vH>E>+It.c/vSeQ4ke8m&QsDC@R?=>rO()kMz:>uH*LzZ~tBCB+jj6chx?T%aC.~1qv:3DGCVbJD.Mf]pVHL tFHIrvMupb=a0&~4JnZpF:l72hp*5=^Q5bM4M@$6qE=gCO,0:Y<F.41+|7<w68<Gd>PWX@r_!PC.:sO q_tkg~ax*gz",
  "pJ.l8Xk+sMb(|/10kA0IJYOjr31yi,L(&$J_<DdnW;)%r|8G[WWZ0!fZZ(E4+pKs%eIp&H/UcLp[w)scY4$rY@o.v*i&7:DDccold|M5[8#s7_ Cg.QVN?W3^SC AMt$~vdgQh> qDpWj30Q?4>zueYLV&M&u8w>3#/CPquVem0>E$ae&G(_eR#9/wxr*3OAlP3R&F(*2@SLbwIPi?sAcqVs^..99Bx3k(]?r* RM.tWpKKL|Lz.t[8hYI!g.CjSv&& 0J|:o<DDQziaoq$@#14(%A+UghaYuM5#]_A+m/JVZC/8a*tdO^9Cm9O3o2LDad9>XzpDb#zMQs/4T8?YR9MM :JnDUO0h~)Xq0NVZ)Yt&Q8GlE7/ XB!YIo:fxSAPM7*=IAj(w?[qPSBIA^V<|>&f=qNd+2/iy:5p<+GWjBh!&bYjsKa./?M&:sRNZl:B_qx+=>Hg3Igy$a08?H[nLQMh1 VH:73j:[iKvC,S ,k9UB*I?Bv%sJ/8?lSBs/5yWd!NU3T.[E.+._GcJG*?[k%cZ,+Iggz*ngZ;?32);Y,_zor)pDGC.C!+>pee?X)GE0DP 8vnOi$Q(lBtxs~ViMl",
  "bf)ydio[yx1Kd?C^dt1Lj32pViKryQQ!1]>]*r,o&^|7~*N=NRe14:)AwC<3#SRK#c&<n > >kH@aP&JIVSco~0~c+]cQT*Yrtd.CIp=FmXY/p8,7vY2&pt5M%wH7(HV250^bw]q(vwV9ElWcQDy;:<y2xD%D!^iI6T?qZ9H9!Zo)Bh5yp*rVJkb>^UJK^nG(Jn9;k29rYFx*NJO^yEh>1WLr>EYp*hr zBJ!Y^*I]sT#N^x: 6]Xh2/ykz;+h#faff70.e<q!llN[#G5dU.cSSBdjv2nT!l#h0UcS6a?KJyEEdKmMq92am.zc|2zn)V<#teFx~$(e$u)^64yw;#[qOc3Zid0e8V$Gr,SqWac2,|zye922di%eCOUs@ag[skCroZ:?~/M~rDO3[O9N0Hq$UcSZUumGA,[$Rf,bXw1[DEE4$#DMi8x#HLdRDrBpJuqyEIHL#:kBQVYldbIrh^rhhW|^m*K~u1j/Y@7bODWT>Fy[J@^d]1S$L36TqQ$lT+%+>@O<f?D[nly2yj9*kHNcg7OFz>$u9Y1cOU*GW!WBJ3PU_^DwA4GeCJL^L2$IK@bAQQkR56@S +<=y0Ig<;#She",
  "rrAY$f0L+1Tc CfucYS/,x$hf|358+q.8A!#As$(qie&qh7?!oI)go0>G%XeZNcIdmh)EpzYriA.A.r[z|Ls68A~nSd5R#p;VBVGUf:+0n#tkJoN]Up])xJ,n2n+s@>N7(YhZ_J49ktm<((!|Zp_,GuKM V6)[%, (imI=]sWx+*QA6Y.mS)@cm<C sK7$@B0U]71,CeW6(du8$Qat:*l_RJ%$.g9qW0 ZBKj~8XVd[21d@qIy1;r&j[@bErEzyb5 VtB1eD(E&y0YQKva300eB[l^CGou&/P&mxR%FX,Wed%&qkTE:d4k278]imbr|kxqMtG>1pjb6);Sq&]o#bNa^4xprERu<9cXv00Smg/%1oGZw#cIG2DkQ<&7FMUg.S:_H!!w45hDkJ*3W>sDT9Pl0.5.((V|qWS~up#JDWri1OF=@^=A^yw0Z(ts7,ei;LlcCTVaf^UrMkplV<B1Nlz~6u,BIIl#2TDE&5_n1~$Ua3nk16joMQs|[Z)h#;BSlSo!)/^u!Anh$k3wBM6Cr>V25.(K~jTfG=tH?6IM=lF#>(>Rcmp2hPDSX3aJ+hD<$fp;yhboDbj.cauJQy2tJj~9Pp",
  "6Oo_]a=Hzg5<STjq ^Mm;1,klCW_f;!o,1hm9wdK*>^lLGv!2!_yE3>Ar+*6kYn~eKK#hjHa0kiC;ng+NZuKb$9 UGMp+@bT>ZT1Hu19Bs_l?yfD9nrl0H/nd?M 2Z<5m8.]dTtqb5k[8hMkSA$vT2@qSd44r)^QGs=&8ydAO,5[m%p0vb~1eVP6EkL3uI3TcL&&gpef&]@E![/Q4RG3pp1dbJ:>99E+BX9,V(+J=ec:f?)qv0d lq>y$q6f9=|nZ%zf?+wS3 0!ym~8%l]<<2oTCko NiBj%C;+:GpFI3(@@=!+|bD:nJRPm;]2kAKK[[xO|(D6tzq4_SVJ*2b<OFOdeZOuPC,ThrRGwb+%ti~g5Rpx*StH@EG#6CG9;RM,D%)*+SnU3iXGDqxY#N;i*)D|8Gsd.O^ETqhstVZk3kMuuPOKhMGactEaikUYYlq>yW0_x<;q;rQ%EnQlFA4,5Ygl@h1zyQB(2WpaJ5|A|=2/xy!54t>?1mX$c,S^r~Q/f_9vq3et~7)Ta;rA=sA9|1Z<Y0(#8Ov+9r6ETVCzcYqkvmS$10x?=lgz.l?Rknyos7j7tb~bTssi|Uo]*;g6P^Nh",
  "A.3|Bn*oc_pXE?N:uRxJ;I?>mod3tsBh~HeT|A?&Cix10 7/TD1 /ph7PNlsBz5LPu3,s|JIDV5?8ON>I1LaeMv66I09&3)rqC|h+xQ5|2>E.Obt:S~=13jn8I~>vgpEa*[ddDb@R=1,qc02Rl^x#FB9/3i85ZB|N;rkiS9fwrX(8q:X~B/+vQ~Ax1R)qBvoJry~6L3nl7$~TX3ex3Q*omU/PpL+$w5lLEr,m80g@sIR[uqGq+(W~aMLB9,~r 3L]B];0~jL1Y~u)))i90rlnMsFB5(B]gH/fe;NS$CrCU@pXN5QCu2w9*;J>$V0&T0trT2wcZTni)+E6>j?hr#1fowzo=Qwep0cmBS^fz;abuP0Y[/ EK$Ef_6 Il~~QjjUvA=(Ymq<E@|qI7VD~^_k&g?FNQ7tCU oI5;c~<n|^8%.42&.+:f_:;gu2[,_FCvZ~Zi1/H!GtW,%BWEi8y+C!Y|:s7kyVwKL$v_dR9Wgc~hI5QB>*|L&)cZMBFnZ;|bCdb|~>_@P?Y<z51>|pgkjcBgJ_DPFaP2x80V[]dHJoJC[1CJ9A?D9[@UY_)_Bxg;B$cQ,4Xe|#r)+pmX8fE%^2)ST",
  "O43xhSm<?1Vv=@9lnCWJd~bGP3%z&rM[O_C(itA.*=Y5MSp|40a*IP@Qa;_J< tB5arYH(Zj OQh*kAsS0 O<P^A26dDj[5^|C1M/i t/#Ok[:0jUjm1/=dyMf^x:o4ogqxhyij@HWgE]z:J6?A<9_tO+;5D$|HTGcpfn1QNv_[|xZfe9Q@i_K[PtGVH5%tnR[NYHvlAbj*|@h9j>gz*Rh bD,]>on?rqk? kHt+LCYo%!AIi9A:Ea97^KKZw$Np>(. MhsQ%; %1Ch; Z?#0nT;J [2+Z&g|(e*~,:==(biyBP[ar3!zcDylWpNL9pvgAO^hKjqh!:>bx0[Ynzdj9)#K0>cRKh%s3Hp9XVAApH@zwX3sdUPSu122g,+9GjAna#(TefW;=#]EO!!9tHvx1yRvLe:pA27iue7mq10;gEGjC!P^%e@j[UYPw/^v%6?,(T(sDQbli!UE3fc%04JYg=z~:1/<>+P6V#_6z~EL]?vNJCe3Z#?R5]t~5&?d]/7EG^$h0ghTjAj=~L/sl@wy1Kg;[J|Pq 9AYJjf=1+>rFgu8!)f8j(vAH&_W~(k;e?O=Ts<edIjnmtB|Uocxg?i.Z>",
  "a]l,3FCw!/kn$<id0(T~(CNpbTYp?TMHbNFK<Ds(x%vOO;7:kC9@dm=/]AYftOgC$>iYYnWkxC73:D+%af|ro_54,h<TLK&fjqDa&![pGY2q5(2SUTm$*QH<<74c3nE9hx4r_B/P=*L)~|]DsLmDO(<Gd^,gzByzx6P@*~Jn,WOn)m</SC1DxovR*MgdLB!GsC_|(g~CL/v6A>#R2yGIJu6=Ap[=soSHilHqU4, Kz5fn[1|nY^RC~NVh#;N(ckwyZ;r<2i]L!M%#ZNKnJNQMKkzQU8URdIQ1;]R)hB[J=pZg>d=n)>iO.tZU@H<2:1FHisD,8x|nYc;&ASHpS@x8<_p <Ni56TK3.p+ZQTHx:1:]M&^1;stPuh6m?(@reCspwjl)7v?9H9>2=rd>?W$UDm+I3_qFEJDUTPz12]Au*D/d68(iOQb!=dAm?%uj>!AJltefB()0cz8xU.9a;&z^NZ$!R3p)js&OfXW2]SWj=><&@qu$W3W3>|H3::NTQ/o]a7[]|g]|hV vDUs0pSM^R^UhXki B,RZg5~255,?ydqtnAthjypk4s$1M4=^?2;ql#O?wAuDGQYc.^J5kzHWO2.",
  "DwBvf1?aGQ6Ijmt42lb6bRPIcoqWrM91lcy(5@|1RB<hAcfG(8mND:6usFGy^R*tYVFe~a^u$zU#h=b4R^XkQZy#/wkN*pYytz!CsqpbwZN+8[wQKFzy>FQc!Cn$q0*=fhkD%Ih~l~k<fvBGY@%o/4,8zws/G3vWA:,>D*yO4m0UN+lw#|Mrq0dKM+XSg#1D(m.!P,vUJ[s]:8(a8 ?^j?] F@ne7C_xCG[PmH?6rRIEl+u)P[wAxvKGM&$Hg_/!*+CpXSI+vl<~=A^^m]|1x*0fl[(*h+9<(yLg[hPH[rNs^xud_ 27 D,^mVyn7/bKKbS@z*drEK8 Y#9VKWd^!Rr+q5yksd_JT9974BHAit)o7)]aKUSb3Pp=RdQK__pW1XB1cE.j/?P~bSSbn% 2]UgRd~Wew84R=T&i^$E@DXU3HczL<kKk|)bqC4VbBF*)3T(i$~QSs^g88E4zy<n8h=Is*&X7::BI#Z*jy+7bx9CIQvQNW;nPq)3^Uw,q IT. SaKk3sUd#|*^+$ ;W6c8Nfp)Ds(;p$i?5ViGKY=W41u6[+Oks*?Z]sRacVMz|d(IQxy(#*tDJR#R%U^7=XoMx%b",
  "Qe_Pql43|4YpQm<0fb:R3+c_(*N|+trj+q!<b<BjIGCCwFqt7[o>:F*1:t<zpBCr0$;Dez>[yLxz^gL<lTmWvRW4a m%;.L=O(ef*m3TY)iP8R<B.yiSx+iJ57e@V54LJQf[Q#8aSIU]*8wlu$_dBIAh^8N2%v3*;Edg.HM:$+,Ob j0[VXha!%@a#[eokm,PS/@RR&K:et|&7sva>A~9p(/A9NHBh3FUJk:Y]mWPVflvFNy1//~Fcx6]hE[k(+#?><6yVd88u<2Xt_q|dqI<%=]brd4Q|Is&#^W?8.i,e9$dB%$:rOv:ku^<oR/76>UgyaseS DZ7WdDA]$w/MJR<HO8VZU|d.rVf!8K5n1&|XH9(vi!UHC~yg7HFCn,?JPh&d9i]x30E3q7(0+OB:/n**Dc(rs$&*[+h.Jkx<lN)%)i8wJrgo/^Le@23<O%Ba1q*ejI#NN3ejn f1X=Z0,xu),TLsa]Y:oI_v&CumSHgNp_H/4 [v?Ib>vnszlhv,~u](MqjQnC1b=E2HY<bj,&MRSWdQ6%,_@%lVy&Coh~(= Fy,7:HeuOyt578##>C[y(z*eUE]!TT<)WC,+>WVF#j9j",
  "sA&HbULh$V2B|#0|t=[)b62zH*KOxq9DRda2>/z:TDCo:KUCCwWlmxWB.:KhDiryJN[9Lw>N8=~DW>;QdGY*(a ^9~?#O;)APSz33#]Y_c2jzeqC%s=M0chjKY(2QYGf%IFMBcP3^T)J9U;o7DKU4x*d^O&&)dO5$3@X6AZzz2OUbraBnW4%t4BF=jTeX.n)V@w:<[p:OtlhJ2IuetInJJ<,/ 2KN!YDDLRuJ.1]]2i~^SLN_F@Id=c($[(m!KDwV_vt]+@GQ3*0YhC~,Z7S=8s,A:hmI A8CWo_U]TQ,>[+SoOAa&DQ#0KO6:XQ19,[ZBM5m,+U@i*X&?9v8Q@|#@(&LzGQJO5<d~GS^p|s.Hwe?Pf[i!tkhI+yW kd?WB^J/flK!P*IW.@$3RfC)8;$<|V(!5K;CWZp<ngfWrj=]ihEIum^(wydv0 d2]p>:E=Gjch,XnPQYSl_@L!6$a4k4eC4%.$aQdLW2r(uB1~G+SKqQ?.1ho6B(aC3vw;7L83^Y(;*7Wh)M7i3>^DI3h~|v.:|3xsevF+=iPX@cR=]0%3H2C|UYz|S<,jF,8P),,t+OS#p$oh6q>O&]_vzQMEs.wN",
  "y@qey4 ?d=8.;vYzAB4ZJ(AqGr5|Dz.H2dQDn4b3q.t<(RB;!<rSxDu;0rUX2S/&A.dZeK]lh]8eLIm9(N(PoSS!WIGhu][/_4o/j=0by,JFDW1)X;^1uPeiikRP:C#.i:Xy5uh&%%LQZuf]|N]uTCYLTda*5k5EHtfq|hpAy4^2;/^V1|D.@r94S1fbrMnEvIg@sfgPWE$B!o^Bir.bfaZyV/iHFBe!L)trr]<([TKj#8~NAXFz6u: QxHY$8WxHhN6aY]z76BH>RcI6;Q%3JpH<S1w*(_W>S(P hKw(%oA*UNy,OXz*@mF.hNS??SO$/C*&a#ie9MND[<j8(&p4o585(]PQ&ArcH[1c.SVmPQ1CGF5ymIn<IN]HKnog?SRE!_Ckuj7<(e4&3=MoCVkPd_5k!|~Y|y&+u>B!VMiKnRae$?Z(04wv6B!n25=+G+L+*U~tS)y<| M|8Kde:b%O~7|T:LIX>HfRM Ywp,2%_bC5..r.CEz>7_5;rC:N/+H(b X+nO>O5g~.9ZW^h@u2Q& *AAyho/ov|u5a$UZI&4s#n:xgQI,!7+[=5i^f3z9F7;SCpA,p^aNdcP/887O|[Y^",
  "L8IC96;))vpwlAMfz>5De^P/VH8at/v%@I|AGMn@+wcQvzc%MaE&dIG92>jbK$@pr@8$;AUPjF3g> >]2 w,?Q3Opte$L<Jrn|s#huZq7#!KZrApp!aVCOpok_oc%I+VCQa=](nZQcLS=|(krD ,Y$&Ooe:8qh0 uAL21)Zo:*:WI(/ld9!Ori@+dP]R_&l/b]qyxptGX=(U:iSA #(c9kxkLPUH%Z^<;WRuGe7=iX~ mf$kJPGT9neph[w:8GPb&EGwy#:[ 7qyA;#nl! 4k %!9UOo:!I=%;#@cr)nM)hWBvculku+o=G~[M220TZ$F%S.*!@q@m!^Gk:Ha)qnaS$*qSMk4;sOt T8Fnp9wkmIQ<|CX765T<Y4~R9k%qCE4iclI2a_xl _DRK~119BeN)_]IF2LpE!6Q3;B3zPJ~7N@oC5=R:&g38#tR47yhfG(Sa,~o^n==T83~6M& lOik_:Z)r?q0jYX#|NQ&!.v>6HGM|B@_s79OWCp*5oT5F0M|asD1g|*?;Fy0_^:iuzL.vpKP#Jg56ui>e$c)tzmg]Or(3d!,|%&k=W7IidjAIzIfuXIF++><@>%7VcIi 2xc1z",
  ">or_(?)hY*@8%@/7/a]j:9[>u:p:obJ?nx9,/Z]~V5aEe#fpb!wTyyHtJ*VKbbFmAR2=nkXV%=dQ|tvg)Xr8.8$TicHk9VaW[XR.n++@WdF~eSwl<uA>cA%&J$+DCj(1=ffDM%XP)GkgxyBeK?UU+4C#(tgBkzjAr9GFbl]tR+R0(_zFXVsz3]l*w.e26&no2tt8*t&U1qch|U+$A*@J)UXWRcf+<.r)9Mb,>_^]xLNlLdoKv9!8upJoorEIRN D@E<U]!x~sCZ!~yd[qu:Cq_dN!)h[&5CuYQZr:Krhnp@9z:,V4lwBQ<eMpg?tpbji/ii(2zrxw<bp_R>%cv_#?grb7b?jBxF:x)W($YLHG1[3_0.ZzoWk>BA!vAFWVfTFo3^m6bGu|VjNPv!C!.6KxO$Nah)1EsD+Wyow;6PK[l~M<(TyIq,uD|UFEj5<7Ra@*:b.>KHxpbnF9mY U/ufpS*VQ*9qnN&uDm~V4YOdiWt)b>6Vj9sF]qgVHtSf.:?bE_9o@sb4,aondVk; ;bpVkV@Q6kiLfveiqB&@>oMRc!=%xw1B%[hNRG?L: #;3|x2<e%p%loY_;H(FYR]W,^GIVF",
  "GPUrr@g).3a%p6>(qQ[?@4RLf4.=i?<~pr PA+sR#~zOq*Bkf?Ny6Jp!.8nYz/YmvM(<[kK6gr1a>f+p/Rc[Vw LAMMm]mjnSi<*3/$c3T:j(/K6q3*F.EiLTMC*9r>u6>;*wG9OQY.Cf:fJJVPZxwPo5RP[x5R^=]pd1D7ygsw2u0|hHw/zz_VI8vC#>IIwdP6aaju;oa=&Ky)B)__.EXoE[%~zNx ey^?9Pzh7@2Rt=O#!%XvbiS_%|k[&XlUM)#gTyI5y]bz_ZFX3T4MFlgg>]Bd=,Qf,& g4vMCSHAF|PGX??dnYoq~bkd!7jLET7&G<7q0si;pI_H#h^u~Lc8e~Em>V|[adDt)d^f(Gal:= 6C]mZufdgSUsr6T^d0NoW5VyJ83N+Z/nb&uWcqwauuQ;Rw]OISYKIX4Vfc,|lz@MKnfUPp(Br8ILupay*sz0WmTSAMe,vyTaJCfd?;a)~iRQm7&jsyS =>2lvqdO?9$g~CwBV]N$C<(7i2kwCn1BDTg[qpmshzVgr>fqCrTlB!!T4/wND;diths9IeimMaUaFGnn 3>ZBI*^$182<G*#*OcT30OK+1Guyd07@.xvuDi",
  ",1);gOqwFw>If<BI!UCI;;C<W$9WJ(W=&CsC )!6DNsW%)dcjZ!s^GbY>PnArZwG>,M^gWwSS~h]lHgm5(?=^/f^OgjwQRuXB:,n<ca3i,v6i8!YM:8%K!V@#9|kEUyK(i|t#2Tq<]qP;W%p%bZNQG$)7WQry>V.AUmb#ge!y[xkuqlYs51.Z5Kud~0&vC&R;(al*.goPQ4Exib|U*_e2. ^LKhQVQ2,?)$JdFt4X5+@KQac?!(a/JViR%xX=vW>W6h~fI %2zOD~4VELrpiy7j+rPWDX+ F_8ddCus]Z8Hi?iziX=zeYbHFZ+!;L<gyZ09UA(>(/9+moo=>3*cfr*MFlqifZ>!=$3s1=9:.!wu*mH%)[X6i)xf9pR)8!LT>g_fm&!;>]J:Q[_9mbCd%PSX>GS7bIU^pDoXphO(vkzxgoc)gI??jPr4,:;BGjqlQky&1h5Z^&zWor]9?g[EK%R/#q^oM!vJUjA)iwv&t$e?SPP0H5^nh)l9KyDivf)*3XktLt%h,Ski?FV&V1vOPv;FlAonQ@jPRv3H=AoVel$Lt8y]y/%3SD|ZWI%>W]VOyyxeI%oU7q3Vi~SyD;Xm_[gjy",
  "r#1!+B6v(Bi@0dv]6eDjX#89IFkFd1U:b0RrA5$!!GXw|c<tGxb2#HM.GKfAddl +26C*[o*dx>ne^|q^J>(rmzNFqb4 +5,LL<SorZ>C:%7EQZ@oh*]82swZcrN~&@ru2p&kQD3/V.aW4O62ty?N,](C<A3/5F+aLU0=zd1eNJ#tMryp>adp/@0[X7_12rSkzm0 @aK@][OYpHc9qAXiR0qej~0)RFInPq72$y_Ri_^#>,gb[P<:W^/>#VGU!EC9#(JBExj jjp>$V(!,XZc1~*C<9+I*owvCH;c!?0L4HZ_!+KRv)P3pD9SH%D<V)vWJKmyEnQ8OUS#Br!1+?/F>y>2,*<,.xd]=+wCuk+<3uBSk<a@m&18T&tt(<Cu.qol=|?Ms$Rsf &$F$ozpFuiDgTDs._Ot+uPh!rLy4VhO[@f+6n*,om?7WC#Kiujy?dZEwA8?kyXSDoQX[QHS@S+raU;hqiJ_B/^O]gf7Q1kc<1VTJRUzSl&ZIb4okx?,J_.Mm7g[L=xrz*Y<7YvPcW>If8p8Y:;nh&zvE^HSNDTR|#i%Qq@cr&@9vDq<[rv6roVZ1S)Y+(uk!xn>a>5z,WxS]g",
  "Ju?xB@DAmx3_(tWh#ye%N?m[8K0P7N29FG_OLMB((S^Na@%Ip17rU*3 U)(^pq3e&l=9Hu4/GuH]<yd^h/CZPwV49TFy]e)]DW;I,V]TeJuTuzVOw^*Xqu!yP,=NipcjDbIBjxxe>=e%vwvKW]DIg@n [j;=Uf_D@lxVU$M3svc1|w=pe>>e3.t3y[j_@AhU(hn5Yj#h3%U;O%JRl__EeH&rS|[#t0X?w#e*R,A=I2gBjXU&l P;f@p33axqt .2TF@Q^>DkUdC_oj/hVNgd#fquyd?hslMoKGLEMWZSKvTVplnNrH:F5!?(Py~/X<FkdzeIW*<]bSL8a1wwI21cJJY0 GLofzY$~SE1@WdsQ7v6_zs+:3_1xkWMGTeu4BTkVcU;!Qh6=56S0Mplk^wk?@ZZp|cH+6AfJI7S;SKeT$nTY[^W>Y]F[*8* SUxpMo4rTR:B;=*5:9SWI~TXO<PLZ[|se@tRmo*J 3sa7Q?C(b7SR3+|JJ5a(gx%Of!AgpaUB/5?GC7@=nmJD(v(b?As#ZJ_2i_(Qfy )jWkA1rbU!;lXamFtvjU%_zLbc;MmC]me5:ls<[vxpFT[sf,!Fd.2N+",
  "T2vHVT87,E*$5;|Yd=>_?BEHbC_0CC+Fb%5cl_/FcLti7=gG+~FI5iPR@<9O4|Kh9)F9!tG/<%&y/&,2W5ql44gL#yc)>D+oMtfo54f|0Zz,|NI!6M%!vQ0=@:ZR56%+~HvQgxp!s?9?X(_Pi?j~8h%bmF34)r*6W(lQEnY]iM!zzAdAQhc3X!m&Co&pn3]= CWJ(lBUzpY,a[V&1UwbMW+GD=rgON<V5_7W]@uIMD (rY>E<[>_YhU<B_(x2GEktqi@K$_lR[5]RY(%@v2mnxX*qif9!1KeFTr]WrTpC?n~hL[!1j43,?+b$GEn^a=T#riga^u_a[yso/8Yrnb%UfH,qN~zg_UFaG11Qe0]E)uGv[H1;0#;g+w7SK9vFx3V3!.vw9mW#l?3yMBwmQh2 9hHxgodV#L1JmJ,$2w?ukz,aK>ITwKVH[*@hGb.@*,J%qh.xR#/^ 6073mH&dwMxD[j5^SqJ8V2ZX1CCGQLop K*>sM3c2Tf!is@s)TgA#_|kgMB+zOo 9<3/cO?#~8~h4sXr8Q.klS# Z3@I $6vnWX)Xzc:c|8bI7cO#(BqO)MDjh7v$vEhL)w[W!Kpkq9n%~",
  "%(A>h[C63;:2sgnV)4rD (@VF,,VO@.)u,boEY0qM:H~0bt@6<gt*#R.YeZhvTk@$c|AK~U]i(Hjj,CozEP<d;GZ7sc|;po%8_&8WV=k^ACcxwGR=Z:hQLC.@Z3~DMbhoiloFu083ZNbs6SC0tU]s[rUaj,1V.$0+4~GPDekAIJ,7(e3A>+ioJ$>LgfveJLcGj0O]mveUU/RnSVHt1p0bv7$vIkU%$B#dgkRrEa9h_K+EUBBP[P ;t@^t7^ s_|QI:.NscfeNP_[6b(4a~3zhtjXr/mQDgKE$2[@u[f_*t?61LxE0 S=A:,WCu#9F|77JrHD$7#)u:%XpdT@mmXlar2jQ|XZeMCErf5S1=^8:n2LOe:MWdi[FoTwHxg?GyfYCqs7F8*rX9<3l9pVZ(hHJmBni_Z4?2oQrL9c<8i.|Yl%Y,L4[giSkXW$^P?|jxP<mA*z*acoA|BR0a05yx5:UXQsYN>HuC,@^; yHJ(oz^8>+oK;J)a$%ExM~&lzuXCa|5)KwRcHZn3>~XU!m~|FGshpH$e#=Pz:UG].gXCLqCO:^SCWlqZe(Yowl43! ;vp*Rdj!=]?^$.]ZV 9l@BYsCGJ",
  "[#fpQSp|kDpgqE[vM,()f+rCpGmY+JUf=.5orgv#I,w&w$mi!^^7zm5!RQ4FErEs97t_aGtjqCUDgY|k>YX.=2/j?da*e^UN$@u%?rXJ[)Y%N&MmD~<~bP,2,?2:~FK7MaZveV##et4^jhUxU>jkxIhehYM]O|%_px+>K8N3h8[DPPtXcmqKdp]z;;q5[/>%822+S>?*28H8:qzXFJq=UA*NADgp|rXGq@AB*>H1fBRbU<vAD(+_f]XMmpVveAJIG=;v?8OuF4,+:.(&NykMfhOBxjV3J[^!V4+Z(@wuQsem.o&+5+b!#l%:5XEq&e*r@ov|[tq%*+$0u/7eyvnKXX:R|j;L,=2L]FAhx~mIQcp:wJdT(oHE<UAsQX=fD,N&lUAT&junK6I(<P*1AekVFTwNJ1mx1z+9R]vCeMR+</t_oVDV+D+R6~t5 @@<+NEB* k||ch?$HTVYU~TX]IkUc/rz&[d9e5D?~$6<bc?GfHy!4d%;C7;=o9*S_Nj!Zj 0[,T1bh/[)5[JWbrNnkEbJ/fYMI~w)n8@RZ$cHx|rD8NC;*nh?_|_pQo+yOZ=ZpwPfkxb8<:>5iS~Pdos)Co6BuO",
  "JL[8IG7k:!^U];[k32FqezI]j$RB<1!/)s+ilU3t[OBc&O<X> FVhU@Mu]Hl4WE IH8Ob*Hazi67SCcr>:&PhlXNBSY0Bpm&QWX5^ #6(T21EOTi1:dn)#6ToeA!o[]&(M<Hs/M1/J]hUUd7k$nnevfEbiFEk_bhE]OT$@)|7x1BZy8:RyTI.Es7uVN5]OCwn$.sxfbS5ymuk./+S3 h:8Vg1,Vk&KVd YXPTBzA; iw.#zmeW$QUG,,C1>/EIqpnT?o~:8DIITIC(j^SY3 VC;!Y*:dfx:!a;b0_;iXCBgPqh&*(5N)fA^xx7u>S,pA<MPyvH|1v8,CfYPPgeMEdgvcmSgr/XQ&<@gzB5>sJoA_SrstYj_JE SR**8Z[9AyJR4VFB.)t194ty+NVbF$@1/ChjD^@>XtJkrm2k,[>8t0x,j!j8P<535yaq.&Q(iCaawv7;&| L yi_sp3$7@dJp(o3l3K1=CH&j*!n[52|Xut3K]6p<SoNo4GXc%OCVL NIp*bj%PB#YWxv^an)lmsCnR@)N]^9<#M~g1&Eg1!$;UQcYZ#r^GOTys5 ::?a*ilfh~JZuP%D!E<Gv9kY6zN_b",
  "Er(pjge2.;Fu7)?d>BsQgO4$99+ay6JOS<w_*QXrvHpMM,XI4W!O8[VY9e,e!@DBxNaYY%DBcd#$7gSUHkmoAo/>5%snm$o8dj]E)ksIc2znW=k@h]VjdRNnW[3L$|GbAj:K_OCfqk8wXW5/anJJ@>Sx?t>%wm_aW.T]r?[n)TL7vq5A)H6/E,$=!K8ZtatiU()[ZQwLkxxX[@,OkiI#PjN$jhS?*d1/9>]4x0UZNWKOyO7,ZhZZA HR8w2Z<_WySA#IM#!A~ku*_1CdHxU$Assc0??(=+AUyP]Q?1:(dw8m)VC>Nm:Q%>9DhT.1dEhcPQdM>o.v(p4|GH)|%:/d5t=+@*;NrH4:&n/me%G@IV#?4QbyWL+C:w;~UL <y]C=3VBCCayT$QhjdYsxkEddX3>nP7v;M:!5Rv3(n)e/aG?&R~AD]juKGUk3W4X[:IG[Al$TBjGTdfj20&<onsv7~4&X$S3LcK+u.t9;7gi~IJ6Gw8F gYlk?JMBl^y=5YP]pm4!9J,&N6Mhd]in5K))W#fofd.94>;OU+=]<_7 bBbb=2!w.t@^JNbSwQk(tXGUV^4V^rv[(A7H3NL]+=[/D!Sb",
  "nNS8>7S6yY~&ukJ h^(_L31n!ftl@Km$F|#0zK2F[e%ZDT.]2i;@KE3USm:GR&F tc3L1d3or~oS5$u QTK%GeI%6r!?Rlw?D_,4ElTa3/k0NQM>&HyYpSKO/bAix:XjQX%6aF;2G9GZq;37?Z?&N@tgY5(ZK7,1To.*xbVnlXl!vYap!B7eMqBPy?;AiTP[a&rx|:C_3<$B&>Ld877?baSr7^_)&RrzETwGXYo ^VESfO]kZ/!S/Stx~)pS6T^2n#0Rf:dxL[@BkT&4mH6tE(/xXp@0q*HaM7)#@S#,lJ4zV?8993(wG~0QM85is2XaYBOb4)xg^3+%&wSf[t?ZKa:s4<^=&RZf5 W[b.BKk6s@JAn+>7129TkEVJrXdlB1!F[2,+zu~.$O0h,)fm#mO;<&<&hmK:X_ *hU:@l(7s|FW<P$v=M^sw)Ing54V|Xy:_YWPn>d7h?+3)=3jEpoYnzJPsa*LmxNQAR?F!GkxOz|)TT_^P$hYFmQ7$Da[t4+iyzn[p(8LmQ~A)p,fb A2SI@_[djD=yL*Y6b,cpeRWS)mE7Xh6|&_Zcicdtqj ;5a_+(mC^][3RKiY4x#PK6AYwt",
  "UvXJ5VMz9zj3E%kWF9_~xJ*/@x7u^gG+,%n:P7mz]eZNa&]!kvIdn:3B%w>TuJmn?ofI3;zdg(EP,I$6/f=&/#O>k5F<Z%B!G[ Me^Aw^:PTGAnJCVemtENJ~3k6w)d|_rtn|YVNo9t!v]A>kngUjx4nsGc js.h3.s:S0EG2nRgtguyv|euYuDT^qA)?lc!ca!Ck4luH<i6<U* jcg%/)P4LJ$k9&~jVElAXW(W:Rm7e@wy30dDQurv _ _.HrbP!GYClxTPSf8$#~aVYIwBo2QR>:w|Q:AQg#9]7qB,~d_Ur=gxA_IJVRhe!(j)Q^CA>bHAK=o6r[6aN]*hjm?1Jf<uQaCZZJeaE<k%~#c/.,Kn$qUH,SGwSTHIX5S>+DTdQ*c5JNdAIFjE|H5WdH4o6)^w/Tj|1;X4.tE ZI uaui)Lh_uEC0u99b<)yPd%l*8d#4@y8#M)D n?P_shILHy$syd6yCe=D#om_Y38#2(Y1~Hqd/(~h[,MKnBanXVl?$&_3ni(=hSa+1975c?Sk0ifZj4+dG 11^&3<u@JNTs4s*0[kZo6xY9k^jdGY9H#>eReVT!.Hz2D+U2K<qI^tKnT1",
  ",N|%$=o^mXlC[#;op]$A1[T@]#d$f~=rbEJfecg|g.9Xl=<;k!xa?00;K(_~0ktS,QjP1lsy/,rwrbuIO=+F?IOeNcDK!713Z2zbe)ZehSAcEWw^jH<IR|!sG4b+GUqH46ZQoX,^rZ_gK4%bYv~Zw#TyGf8,Y|AaNgersXkrEZdz;d4khrDa*&UJalPRl*]g+MzaNYO+%yrFN2B3SbdU,%+I#40fGC3yFJNB~+.v8|sc@mY_ySPB:|BQ$s@4AFq&M48G&m|zuyhYfRba5PQRrlt7(b(t,;NPIDfs6BZL&j:J[;&ySWHNAkR)UBC*PTd++0a.ZviG)##|n2JB2kZEZ)V.U|wu>dFaW&6x[4ue%54T9y,hF=@&eK+M]2BPQTLbNhO)ZzyT8T|Zj$L=A~1y!V.&p:+Gc[#C~14yI<XbVvE S|tskPcYgy1iDD0p)0*%w_wA@30s4PQL6eYW,@+N9E$Z[BxI:jEkzT7BE3hsxk&1;;&1[JR/dRBVoknM<Qh[d29KB^G?<027Y9UF1dbyjcd7Q$g26mIYr,z/y:OT[ Au=3A~3a&NG)<Iy6!lz/_BiAN49J@v>pGFYU4AHRd$| <0",
  "e1U4Rp.DPgL~jUkhWR;2#ZqJb*BdZ )o65sngGoX~tD5&B;SGcpznpIlK0*X!<3]3zf&bVb~Gp[_ZWu=diwdtqkV#XyED]T[ 4E4LL05yhTlrwA]n#vj36;jGZ6%[PN.Z((<FB>NZ_bc:j|Jv*U 7xvLfp^KTG )+(DRdm.]Ggy9ux#0Js C5G^7rmP6@>lXflR%Vgb0A5)4UbcwNCz+|;/)IcEdAJY8I4u.iz2U15p@6.M!68uW]4mkGlEV4UWxtI%&rM;IMT[/_LrNp1^A0dBSI(<A$41W<B?=/2#U6gm@A?#7piXgJDY?5Ey+o(!AGqXVeh&#pc& NbHzQuhFE(p:+Q;A[L#r&yakLJBYyw/?U0,*_3?p7NhXB)~tNHvIn1]<GcPZj;X8WS9)%Ut|x[H|Hiohc*pzNeK=cL,1%4|@vf,XA6n.:qgY0z=bK,X8P_rHpJ*G8(x~5YhAk@DX*F$g|d]bfl|6?Q5HhJd(5w:,,C%E>C7W~]Boceh*Lg]by1/][2:B8[^f_:Jl[I0:lF.A@>$m,=%Any%Ha!P^t!CgvynHN3E3cD/7aFysuoid;GPw8GzHXdWZ6g7LO.zc@;/.",
  "<19KP!ymz8@6iMw.,:~n&IT)(#]9]pEK9Cwz~pZyM^uU]2dqUtc$b;/NXvrvh^|]La.,4~R5FZ>cI1]u5pZoq%z<wuK0G:KI(2i_OoOjzbQFxwT1E=XO7CbJi!3#53mX$Yw/#5%jDkqn#QjZ4c^+5Q$>3^SJQ(3i2=0tz Yb6f<Cu+fbHe LCrw]9!/M9TQg;@ML1^u=@EGhkbH8y#@RdP4(tjt7$V:;q&xb|]KhM[c4]LtM6K6$&H%wW7W=[c56[SO Gy7aVy&G]]MA4#(zPUhY~WZ[KZz$bXrxJcGy&d#xi[@gZ]!_x%^hO*q*<@;!?&;r(sIuF.A(F*+[it] y13<a+eW01=: qqc<qhX]fR:92G7?dtnX)IGY[]t+=/2K*TN^Ssps8rbAO/U(~:;Kxgs,oZ<~[q1f?%q%:@T_&UyG|B4:~oDr$7H!5>>sQ3Pm|(4Qi0W(c0X<Qdww|7PRiswQt(F@8Rg9pjCt& =MyLy9&5KR^[dzegc|nux>Ez]Gr~ee/L57[vE/&KP?gDup]sS5u8;#*vAlBHr#NS 4V>+KrMjqBmVa&yrEJT&4mJW>GQl|Hf#nwgOf+Eqa(6LHygs",
  "l@A^pd:zK$~#,%R/6,5rY6OaQFrW5<pbJ^mLJ#?/1y$)bzK@hV59=I4;n0PqfElfYcUXB?:8o:C2IT*%$?#Y& rM7s,SRaY]S>t[nUJAM3GDkS! b*c6^i!5w;k5mKImZ80p_(?a5jz?AhC5yH*ew*8X|aJ*Lg/pCYmBnQN%$V%1dg#cSopxrc=ow_*XEM7WTNDQhO0H6A.XWUn#f:J(/t0W@D2/NbOmuH/g!I&aq/)OLTJCG&#c=0BWrb5duE!n[0 7Ht*o;1<i^05:!fMFs3_%2<=_YqzDE8Ir_f#CP/D_)$[L j7SwiZ>?j<DD8Xzc_muz%=;Z ],Cr+l|sJjDI(wdE|VHv^G:tb8><! oqX.kUHRRePsKFI!elfxxKZlIQWFdlMgnfA(U^T0Y&eWVo~XwSZ+W%*ph|EO&mP.@f,Cx2?xXZ U55S.Clfc,KCK!i33Zzy!#/txjMpVn]TAykS4:4NHAVaR$g|.ghF/h!:WVOJsd5n*=&+Y:vA8QhKETe[dM0R6Xp)Y|t!harJf?VAuCbPl|M|h1DM7lG[Wd=NEf>a+,%S%cw2.;z11vf8uwMiAzanWDB_FbGnz5)*P<kVl",
  ":7e]A]@~UZ2WZ*?I[Q,=1$,@MXMaO:M+kt/6jJlBpx[03=%TXa*BhP1g1r>F&0lDCQHa6r/>6qI!wf$ygDybMuK~#GaCy3=rVZxNXq%)[oTBo:_vDtqN^h)C~O=La6.Z,TC?ou$esi%CLrLvUspYDo(fOklUmJz_yZN5/AP|R_$]FBAz]7!5/a sGgg=a2p~aaK!nne**,:c((H,6FDESeAy;,vrOiQ&fe7!)#PVd@^z!y_t0MeZ,[;5v#7@Ci,$h|Xyl&pK)!2)P:#,FV[<%ORnA$ KhY^+R1wPpNGUOY6kQ<^=kstj0@p#FCTO%RJ(9X[XbsSVj4aR9k AYrwd+%)%.c8>;KHN#f6+)rbQ<F!J3>M&/|:sX9LQ=+aMOq%$j>Q:|E.CfcunDeyL!zbFfRWb[LNKi|lR/m)CPwp[JewL5X<YulJtF Z?N?f#@okaU(j2w%*y(K=qC.v~$XaJ7SJ%E:<oJ]f~yg:g[F fsQhTZwa(<51;|GaV%[FYb @,i@F4,@JR7p(sQ^Erlfun9*,J0RO:Bw#qBrcchih];~a~h%()bWQvapx(Pj*Qr(V?v,[1$<&21A Z^w[kc_G@5x>R",
  "Z_MdB_NDL|GY?[Fk)%Y63R!cEL$a22[u#9czeQZe!R;(F6d.TJ3?XPd|[nBGbJFPE_5*MHt@J3mY~@2^MQgPf1wms.qp?P#]V1|bEn^ie02Rp=FIoUr+3x<Qvj&8P,Z1,E<P2CEe!+5BdW#h:wB_b6bN8+ndcjJI,<iS>;QodI)%_I6@:<YHk7T,vrv2|~rGJoV30NmB,#p:7v)y>)t.ad/s_CDcWbqg8=gI92S&Q#K__t/gfUwzHMmBUD!#zzb!QMlW0x>*sm6AskW9sy+S5vXG]W|n%+RnTH29 ktS_Xq7=P,qrAZj=FafN>=^~wYbA/kMaX5y)=]5?n|gCTnrwWlMgM^EpMBRf8ih>N/7Q0 wa)@$I5)& !Edvr/tPf9x$5=P%RI6a)+h~<xdf|m^1R//rDJ_AL.+I9tUa~$sypRUfT&F=e#=V&k7yFw+/vP>J#q,k/2t4T0y&wap#_Q:<w@NGb=+awiv95GYd@*u UN5!?V31;(B(5UTeBLPG__09r0lG]k]dK*zmOK3=G[. [XSg/ cBhi2Pl^+g4#m#6^iz0i76S>C(N+)HtheyU!U)BeNa3HevhcyW&DM&8p.Pz#6",
  "j4.6JZ<8%Ug7Rm u N>(RtsD3K!30U[UM!gj3iGZ=AB%f!Ykb8J7:XZ&P,1tagesQz.&.HX!UP~ ux&0Yuum=7 dfd~IXdm@+#(A$L]ISL>Bml=x+?85;jrL&aE4mTY<G&K!v/NtUOxicU2nw3n@pTf6Odxb^79U)F2K03$:CIS^H%:o#8%eeSBj12B?v[UfM7LZ|S8s%JKvf[pO6%PT|P98_*U3 pRJ6^IU7FQ8N(v%[inmPid*MrOvxd(/yH)BXE?*^/AD,5)en( 3RdgXK>ptmF<KD?;ihQ:3Q~MQ,0N/N;HWl|SWOMq3m74]N.9IE2R_A~W(%ZiBa+msR#=l3PvFLb%=y(RT?~ ?Uk5OEaA, ?UGYEGcYjxe;KInlsb1t>ImrA,_3)X%FbHJ;GJBk!4:tW*vrD:ngY7+R(P2:a%)*zOT3[DUd^sxN2(5y:ZqmziVu~vC@9kL(+k_3zdsb,$=tJl_Ra&Xe3o6r|s(dik^,( x/Ika8_4dPgWLqqJfS^T;>R4[GsI$k2T$gB,i.2ay#?;:,@lE2%u@Y*?om*)k+DI8I(z7[IU=rF66ieg[o2(UB([B*G)Tk%l[cD%KWbJ_",
  "9Et6!X.Km8^B+GQfC k]1Lg]XzBd7.XjNu6c*^p7o0X&8:SIejElZ<0Jzm >&|^ux>!SLxvSQ*&6[+mV~LR>mb|L=;xdE8Eb8y/]_WFn%Sr$mTFl51&hGF45x1x60CUeI,zobxl|&5i%_4C&F_#oeptRW8W:+=|OG^V E*@|;F*1M:a?^~>(|B!.xbL&f[,F;?duy|E<tacc7[Emc3fJzN:9i)h(/42Pq*:i6[Y].|Yx:#wmMAvPa$o;zE~ULsZcaop0$g7?T g_t +9[vHu%swfW/:fCjP#Pf.APh>BJu; 5yUcz$0BUGl2BGg&v_bD(RR#.I|S&bnUFc~v[Z4Q412?kN7Er$$WWKL&vl=q+s?/w)c%cW2)6L )V=|&5pPtKQ83P!:0d*xL=_#GT0*fox Udq|#3Vj:CBmiYH8Qy~?CDYFlCk5#e6)m!:mJ$s[C*E[TH$]P6/oMHi0GLNty&<h&4F)>_[675(_+q!9kDk?Oi^E+(AR59e76w~:rNq=hz/<k~S,/_N2@vJdc@<lY>O36oN:M?NYpyVuvZ7GIvw^_hBxdb&#]gh|uI$@;|]^U7]a+?OpQKoQfVf^j2Vra7pF<",
  "*5Qm:6DQ:Gj[<5C7Dwl6hC?_JxJw 1*@7j(ohyPj2/%;gx0Lt3PP.=PT80(vf5hmiY<70hjUp]SBH2xD7bWN,i_Ce2U+f?|D5#4?sUJ|%jZ/ZK,@w]:UMM!=fKZyAUOAiC5/oLFF,wpmf](QYx!|k$RE&4??$oi5FM^] /AWtxLfGQoYyxQ=cb:>c(^Oe(dS5eQB(qq|(e]x,UxPt_8HP:=|qD>LNS%Ii~Y2dU(vCxtT_4DY59vxB.wXPp~dBG G3bc,Q~UDQZ8#v^pgG# $<HGVPeiOKIf.21~9k+F,P4g7Y30/BO2bl@HQYz>n2g^QTy~&@mar_/YsgS?,h,U1D@i>$(Gf0#$78W]WRs0MILV:l0D5R<leyG0Thz0_$7 8iu)PnB/.XK%~_iNj/bZR+$F<t>#m2m3ysd9Bz&<P=H(!Wm+yS,%H;f+_ g/^8|  F&c:W<cd A,~)%PY(zFrLL],v1.p=gF3Rot3<g(Df.X=J5 4I)u[24Ry,C/>dFK z[Aux?%gHJbB%z>7?cMzhNGLxQe]u6?lZ1$G0(k+I,xDh+NOVQ9gx6G+_:yB^z]juTVXi]WX"]

end BitSchema.Text.CharacterName
