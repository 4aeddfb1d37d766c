import DesignSystem.Component.Fragments.Basic
/-!
# Fragments of the navbar
-/

namespace DesignSystem.Fragments

/-- The fragments of the navbar. -/
def navbar : Fragments where
  styles := Text.lines [
    ".navbar \x7b",
    "  display: flex;",
    "  align-items: center;",
    "  gap: var(--ds-geometry-spacing-6);",
    "  padding: var(--ds-geometry-spacing-3) var(--ds-geometry-spacing-6);",
    "  font-family: var(--ds-typography-variants-body-fontFamily);",
    "  font-size: var(--ds-typography-variants-body-fontSize);",
    "  line-height: var(--ds-typography-variants-body-lineHeight);",
    "  background: var(--ds-color-surface);",
    "  border-bottom: var(--ds-geometry-border-width) solid var(--ds-color-border);",
    "\x7d",
    "",
    ".brand \x7b",
    "  font-size: var(--ds-typography-fontSize-lg);",
    "  font-weight: var(--ds-typography-fontWeight-bold);",
    "  color: var(--ds-color-text);",
    "\x7d",
    "",
    ".links \x7b",
    "  display: flex;",
    "  flex: 1;",
    "  gap: var(--ds-geometry-spacing-4);",
    "  margin: 0;",
    "  padding: 0;",
    "  list-style: none;",
    "\x7d",
    "",
    ".link \x7b",
    "  padding: var(--ds-geometry-spacing-1) 0;",
    "  font-family: var(--ds-typography-variants-label-fontFamily);",
    "  font-size: var(--ds-typography-variants-label-fontSize);",
    "  font-weight: var(--ds-typography-variants-label-fontWeight);",
    "  color: var(--ds-color-textMuted);",
    "  text-decoration: none;",
    "  border-bottom: var(--ds-geometry-border-width-thick) solid transparent;",
    "\x7d",
    "",
    ".link:hover \x7b",
    "  color: var(--ds-color-text);",
    "\x7d",
    "",
    ".active \x7b",
    "  color: var(--ds-color-primary);",
    "  border-bottom-color: var(--ds-color-primary);",
    "\x7d",
    "",
    ".actions \x7b",
    "  display: flex;",
    "  align-items: center;",
    "  gap: var(--ds-geometry-spacing-2);",
    "\x7d"]
  element := Text.lines [
    "<nav class=\"navbar\" part=\"navbar\">",
    "  $\x7bthis.brand ? `<span class=\"brand\">$\x7bescapeHtml(this.brand)\x7d</span>` : ''\x7d",
    "  <ul class=\"links\">",
    "    $\x7bthis.links",
    "      .map(",
    "        (link) =>",
    "          `<li><a class=\"link $\x7blink.active ? 'active' : ''\x7d\" href=\"$\x7bescapeHtml(link.href)\x7d\" data-href=\"$\x7bescapeHtml(link.href)\x7d\"$\x7blink.active ? ' aria-current=\"page\"' : ''\x7d>$\x7bescapeHtml(link.label)\x7d</a></li>`,",
    "      )",
    "      .join('')\x7d",
    "  </ul>",
    "  <div class=\"actions\"><slot></slot></div>",
    "</nav>"]
  reactView := Text.lines [
    "return (",
    "  <nav className=\x7bcx(styles.navbar, className)\x7d>",
    "    \x7bbrand && <span className=\x7bstyles.brand\x7d>\x7bbrand\x7d</span>\x7d",
    "    <ul className=\x7bstyles.links\x7d>",
    "      \x7blinks.map((link) => (",
    "        <li key=\x7blink.href\x7d>",
    "          <a",
    "            className=\x7bcx(styles.link, link.active && styles.active)\x7d",
    "            href=\x7blink.href\x7d",
    "            aria-current=\x7blink.active ? 'page' : undefined\x7d",
    "            onClick=\x7b() => onNavigate?.(link.href)\x7d",
    "          >",
    "            \x7blink.label\x7d",
    "          </a>",
    "        </li>",
    "      ))\x7d",
    "    </ul>",
    "    <div className=\x7bstyles.actions\x7d>\x7bchildren\x7d</div>",
    "  </nav>",
    ");"]
  angularView := Text.lines [
    "<nav class=\"navbar\">",
    "  <span *ngIf=\"brand\" class=\"brand\">\x7b\x7b brand \x7d\x7d</span>",
    "  <ul class=\"links\">",
    "    <li *ngFor=\"let link of links\">",
    "      <a",
    "        class=\"link\"",
    "        [class.active]=\"link.active\"",
    "        [href]=\"link.href\"",
    "        [attr.aria-current]=\"link.active ? 'page' : null\"",
    "        (click)=\"navigate.emit(link.href)\"",
    "      >",
    "        \x7b\x7b link.label \x7d\x7d",
    "      </a>",
    "    </li>",
    "  </ul>",
    "  <div class=\"actions\"><ng-content></ng-content></div>",
    "</nav>"]
  elementMembers := none
  angularMembers := none

end DesignSystem.Fragments
